import SigningProxy.Time.Eventual

/-!
# Before a moment, and by it

A value is there by a moment, or it does not come before it; a value that does not come before a moment and has
arrived by it comes at that moment. Under a limit a value comes as it would if it is there by the limit, and
otherwise the limit does. So whoever looks for the value first and for the limit afterwards, and never lets a
moment pass at which one of them is due, sees just what the limit leaves of the value. Time goes on past any
moment if there is only so much to do before it passes.
-/

namespace SigningProxy

namespace Eventual

variable {α β : Type}

/-! ### By a moment -/

/-- The value is there by the limit. -/
def ArrivesBy (e : Eventual α) (limit : Nat) : Prop :=
  ∃ ms value, e = .after ms value ∧ ms ≤ limit

theorem arrivesBy_after {ms limit : Nat} {value : α} :
    (Eventual.after ms value).ArrivesBy limit ↔ ms ≤ limit := by
  constructor
  · rintro ⟨_, _, heq, hle⟩
    cases heq
    exact hle
  · intro hle
    exact ⟨ms, value, rfl, hle⟩

theorem not_arrivesBy_never {limit : Nat} : ¬ (Eventual.never : Eventual α).ArrivesBy limit := by
  rintro ⟨_, _, heq, -⟩
  cases heq

theorem ArrivesBy.mono {e : Eventual α} {limit later : Nat} (harrives : e.ArrivesBy limit)
    (hle : limit ≤ later) : e.ArrivesBy later := by
  obtain ⟨ms, value, heq, hms⟩ := harrives
  exact ⟨ms, value, heq, Nat.le_trans hms hle⟩

theorem within_of_arrivesBy {e : Eventual α} {limit : Nat} (harrives : e.ArrivesBy limit)
    (late : α) : e.within limit late = e := by
  obtain ⟨ms, value, rfl, hle⟩ := harrives
  exact if_pos hle

theorem within_of_not_arrivesBy {e : Eventual α} {limit : Nat} (hlate : ¬ e.ArrivesBy limit)
    (late : α) : e.within limit late = .after limit late := by
  cases e with
  | after ms value => exact if_neg fun hle => hlate (arrivesBy_after.mpr hle)
  | never => rfl

theorem arrivesBy_map {e : Eventual α} {f : α → β} {limit : Nat} :
    (e.map f).ArrivesBy limit ↔ e.ArrivesBy limit := by
  cases e with
  | after ms value => exact arrivesBy_after.trans arrivesBy_after.symm
  | never => exact iff_of_false not_arrivesBy_never not_arrivesBy_never

/-! ### Not before a moment -/

/-- Nothing arrives before the moment. -/
def NotBefore (moment : Nat) (e : Eventual α) : Prop :=
  ∀ ms value, e = .after ms value → moment ≤ ms

theorem notBefore_delay (e : Eventual α) (moment : Nat) : (e.delay moment).NotBefore moment := by
  intro ms value heq
  cases e with
  | after later value' =>
      cases heq
      omega
  | never => cases heq

theorem NotBefore.map {e : Eventual α} {moment : Nat} (hfirst : e.NotBefore moment)
    (f : α → β) : (e.map f).NotBefore moment := by
  intro ms value heq
  cases e with
  | after ms' value' =>
      cases heq
      exact hfirst ms value' rfl
  | never => cases heq

theorem notBefore_within_iff {e : Eventual α} {moment limit : Nat} {late : α} :
    (e.within limit late).NotBefore moment ↔ e.NotBefore moment ∧ moment ≤ limit := by
  by_cases harrives : e.ArrivesBy limit
  · rw [within_of_arrivesBy harrives, iff_self_and]
    intro hfirst
    obtain ⟨ms, value, heq, hle⟩ := harrives
    exact Nat.le_trans (hfirst ms value heq) hle
  · rw [within_of_not_arrivesBy harrives]
    constructor
    · intro hlimit
      have hle := hlimit limit late rfl
      refine ⟨?_, hle⟩
      rintro ms value rfl
      rw [arrivesBy_after] at harrives
      omega
    · rintro ⟨-, hle⟩ ms value heq
      cases heq
      exact hle

theorem eq_of_arrived? {e : Eventual α} {moment : Nat} {value : α} (hfirst : e.NotBefore moment)
    (harrived : e.arrived? moment = some value) : e = .after moment value := by
  cases e with
  | after ms value' =>
      obtain ⟨hle, heq⟩ := Option.ite_none_right_eq_some.mp harrived
      cases heq
      have hge := hfirst ms value rfl
      rw [Nat.le_antisymm hle hge]
  | never => cases harrived

theorem arrived?_eq_none {e : Eventual α} {moment : Nat} :
    e.arrived? moment = none ↔ e.NotBefore (moment + 1) := by
  cases e with
  | after ms value =>
      rw [arrived?, ite_eq_right_iff]
      constructor
      · intro hnone ms' value' heq
        cases heq
        apply Decidable.byContradiction
        intro hlt
        cases hnone (by omega)
      · intro hlater hle
        have hlt := hlater ms value rfl
        omega
  | never => exact iff_of_true rfl nofun

theorem NotBefore.not_arrivesBy {e : Eventual α} {moment limit : Nat} (hfirst : e.NotBefore moment)
    (hlt : limit < moment) : ¬ e.ArrivesBy limit := by
  rintro ⟨ms, value, heq, hle⟩
  have hge := hfirst ms value heq
  omega

/-! ### Under a limit -/

theorem delay_within (e : Eventual α) (limit : Nat) (late : α) (moment : Nat) :
    (e.within limit late).delay moment = (e.delay moment).within (moment + limit) late := by
  cases e with
  | after ms value =>
      simp only [within, delay, Nat.add_le_add_iff_left]
      by_cases hle : ms ≤ limit
      · rw [if_pos hle, if_pos hle]
      · rw [if_neg hle, if_neg hle]
  | never => rfl

variable {e : Eventual α} {late : α} {moment limit : Nat}

/-- The value is seen first, also at the limit itself. -/
theorem within_of_arrived? {value : α} (hfirst : (e.within limit late).NotBefore moment)
    (harrived : e.arrived? moment = some value) : e.within limit late = .after moment value := by
  obtain ⟨hbefore, hle⟩ := notBefore_within_iff.mp hfirst
  rw [eq_of_arrived? hbefore harrived]
  exact if_pos hle

theorem within_of_not_arrived? (hfirst : (e.within limit late).NotBefore moment)
    (harrived : e.arrived? moment = none) (hdue : limit ≤ moment) :
    e.within limit late = .after moment late := by
  have hnow : limit = moment := Nat.le_antisymm hdue (notBefore_within_iff.mp hfirst).2
  have hlate := (arrived?_eq_none.mp harrived).not_arrivesBy (Nat.lt_succ_self moment)
  rw [hnow, within_of_not_arrivesBy hlate]

/-- What is done in two steps, each within a limit of its own, is done within both limits together. -/
theorem arrivesBy_bind {first second : Nat} {next : α → Eventual β} (hfirst : e.ArrivesBy first)
    (hnext : ∀ ms value, e = .after ms value → (next value).ArrivesBy second) :
    (e.bind next).ArrivesBy (first + second) := by
  obtain ⟨ms, value, heq, hle⟩ := hfirst
  obtain ⟨later, result, hresult, hlater⟩ := hnext ms value heq
  refine ⟨ms + later, result, ?_, by omega⟩
  rw [heq, bind, hresult]
  rfl

end Eventual

/-! ### Time goes on -/

section Turns

variable {σ τ : Type} (step : σ → τ → σ) (clock rank : σ → Nat)

/-- Where there is only so much to do between two moments, time passes once it has been done. -/
theorem exists_run_to_next
    (hstep : ∀ s, (∃ turn, clock (step s turn) = clock s ∧ rank (step s turn) < rank s) ∨
      ∃ turn, clock (step s turn) = clock s + 1) (s : σ) :
    ∃ turns : List τ, clock (turns.foldl step s) = clock s + 1 := by
  induction hrank : rank s using Nat.strongRecOn generalizing s with
  | ind left ih =>
    obtain ⟨turn, hnow, hlt⟩ | ⟨turn, hnow⟩ := hstep s
    · obtain ⟨turns, hturns⟩ := ih _ (hrank ▸ hlt) (step s turn) rfl
      exact ⟨turn :: turns, hturns.trans (congrArg (· + 1) hnow)⟩
    · exact ⟨[turn], hnow⟩

theorem exists_run_beyond
    (hstep : ∀ s, (∃ turn, clock (step s turn) = clock s ∧ rank (step s turn) < rank s) ∨
      ∃ turn, clock (step s turn) = clock s + 1) (s : σ) (moment : Nat) :
    ∃ turns : List τ, moment < clock (turns.foldl step s) := by
  induction moment with
  | zero =>
      obtain ⟨turns, hturns⟩ := exists_run_to_next step clock rank hstep s
      exact ⟨turns, by omega⟩
  | succ moment ih =>
      obtain ⟨before, hbefore⟩ := ih
      obtain ⟨after, hafter⟩ := exists_run_to_next step clock rank hstep (before.foldl step s)
      refine ⟨before ++ after, ?_⟩
      rw [List.foldl_append]
      omega

end Turns

end SigningProxy
