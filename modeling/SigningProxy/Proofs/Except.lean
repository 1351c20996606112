/-!
# When a computation succeeds

A computation in steps succeeds exactly when each step does, with what the step before has brought.
-/

namespace Except

variable {ε ε' α β : Type}

theorem bind_eq_ok {x : Except ε α} {f : α → Except ε β} {b : β} :
    x >>= f = .ok b ↔ ∃ a, x = .ok a ∧ f a = .ok b := by
  cases x <;> simp [bind, Except.bind]

theorem toBool_iff_exists {x : Except ε α} : x.toBool = true ↔ ∃ a, x = .ok a := by
  cases x with
  | error e => exact iff_of_false Bool.false_ne_true nofun
  | ok a => exact iff_of_true rfl ⟨a, rfl⟩

theorem mapError_eq_ok {x : Except ε α} {f : ε → ε'} {a : α} :
    x.mapError f = .ok a ↔ x = .ok a := by
  constructor
  · intro h
    cases x with
    | error cause => cases h
    | ok b =>
        cases h
        rfl
  · rintro rfl
    rfl

theorem mapError_eq_error {x : Except ε α} {f : ε → ε'} {e : ε'} :
    x.mapError f = .error e ↔ ∃ cause, x = .error cause ∧ f cause = e := by
  constructor
  · intro h
    cases x with
    | error cause =>
        cases h
        exact ⟨cause, rfl, rfl⟩
    | ok b => cases h
  · rintro ⟨cause, rfl, rfl⟩
    rfl

end Except
