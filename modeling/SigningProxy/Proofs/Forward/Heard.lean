import SigningProxy.Proofs.Forward.Deadline

/-!
# What is heard of an exchange

Of all that happens in an exchange, the program's records and the outcome come out on the client's side of it,
each at its moment; the requests that the destination receives do not. What is heard of a computation is put
together from what is heard of its parts, and a deadline looks at nothing else. So parts of which the same is
heard can stand for each other.
-/

namespace SigningProxy

variable {ε δ α β : Type}

namespace Course

/-- The course with those events alone that `p` makes something of. -/
def pick (p : ε → Option δ) (c : Course ε α) : Course δ α :=
  ⟨c.events.filterMap fun (moment, event) => (p event).map (moment, ·), c.outcome⟩

variable (p : ε → Option δ)

theorem happenings_pick (c : Course ε α) :
    (c.pick p).happenings = c.happenings.filterMap p := by
  have hevent : ∀ entry : Nat × ε, ((p entry.2).map (entry.1, ·)).map (·.2) = p entry.2 := by
    intro entry
    cases p entry.2 <;> rfl
  simp only [happenings, pick, List.map_filterMap, List.filterMap_map, hevent]
  rfl

theorem pick_delay (ms : Nat) (c : Course ε α) : (c.delay ms).pick p = (c.pick p).delay ms := by
  have hevent : ∀ entry : Nat × ε, (p entry.2).map (ms + entry.1, ·) =
      ((p entry.2).map (entry.1, ·)).map fun picked => (ms + picked.1, picked.2) := by
    intro entry
    cases p entry.2 <;> rfl
  simp only [delay, pick, List.filterMap_map, List.map_filterMap, ← hevent]
  rfl

theorem pick_bind (c : Course ε α) (next : α → Course ε β) :
    (c.bind next).pick p = (c.pick p).bind fun value => (next value).pick p := by
  rcases c with ⟨events, _ | _⟩
  · simp only [bind, ← pick_delay]
    simp only [pick, List.filterMap_append]
  · rfl

theorem pick_within (c late : Course ε α) (limit : Nat) :
    (c.within limit late).pick p = (c.pick p).within limit (late.pick p) := by
  -- Picking keeps the moments, by which a course is given up.
  have hevent : ∀ entry : Nat × ε,
      (if decide (entry.1 ≤ limit) = true then (p entry.2).map (entry.1, ·) else none) =
        ((p entry.2).map (entry.1, ·)).filter fun picked => decide (picked.1 ≤ limit) := by
    intro entry
    cases p entry.2 with
    | none => exact ite_self none
    | some picked => rw [Option.map_some, Option.filter_some]
  have hgiveUp : (within.giveUp c limit late).pick p =
      within.giveUp (c.pick p) limit (late.pick p) := by
    simp only [within.giveUp, ← pick_delay]
    simp only [pick, List.filterMap_append, List.filter_filterMap, List.filterMap_filter, ← hevent]
  rw [within, within]
  rcases c with ⟨events, _ | _⟩
  · dsimp only [pick]
    split
    · rfl
    · exact hgiveUp
  · exact hgiveUp

end Course

namespace Exchange

/-- The records and the outcome of an exchange, each with its moment. -/
def heard (e : Exchange α) : Course Record α := e.pick Event.record?

theorem records_eq_of_heard {e e' : Exchange α} (hsame : e.heard = e'.heard) :
    e.records = e'.records := by
  rw [records, records, ← Course.happenings_pick, ← Course.happenings_pick]
  exact congrArg Course.happenings hsame

theorem outcome_eq_of_heard {e e' : Exchange α} (hsame : e.heard = e'.heard) :
    e.outcome = e'.outcome := by
  have houtcome := congrArg Course.outcome hsame
  exact houtcome

theorem heard_bind_congr {e e' : Exchange α} {next next' : α → Exchange β} (hfirst : e.heard = e'.heard)
    (hnext : ∀ value, (next value).heard = (next' value).heard) :
    heard (e.bind next) = heard (e'.bind next') := by
  have hrest : (fun value => (next value).pick Event.record?) =
      fun value => (next' value).pick Event.record? := funext hnext
  rw [heard, heard, Course.pick_bind, Course.pick_bind, hrest]
  exact congrArg (Course.bind · _) hfirst

theorem heard_under {e e' : Exchange Response} (hsame : e.heard = e'.heard) (deadline : Option Deadline) :
    (e.under deadline).heard = (e'.under deadline).heard := by
  cases deadline with
  | none => exact hsame
  | some d =>
      have hcollected : heard (e.bind Deadline.collect) = heard (e'.bind Deadline.collect) :=
        heard_bind_congr hsame fun _ => rfl
      rw [under, under, Deadline.run, Deadline.run, heard, heard, Course.pick_within, Course.pick_within]
      exact congrArg (Course.within · _ _) hcollected

end Exchange

end SigningProxy
