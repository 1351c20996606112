import SigningProxy.Time.Eventual

/-!
# Courses of events

A computation in virtual time is the course it takes: what happens on the way, each event with its
moment, and the outcome. One course continues another by starting when the outcome of the first is
there; a course without an outcome is never continued. A course that is given up at a limit has the
events up to the limit, and goes on as its replacement does.
-/

namespace SigningProxy

/-- Events of type `ε` on the way to an outcome of type `α`. -/
structure Course (ε α : Type) where
  events : List (Nat × ε)
  outcome : Eventual α
  deriving DecidableEq, Repr

namespace Course

variable {ε α β : Type}

/-- The outcome is there at once. -/
def done (value : α) : Course ε α := ⟨[], .now value⟩

/-- Wait for a value; nothing else happens. -/
def await (value : Eventual α) : Course ε α := ⟨[], value⟩

/-- These events happen at once. -/
def note (events : List ε) : Course ε Unit := ⟨events.map ((0, ·)), .now ()⟩

/-- The same course, started `ms` later. -/
def delay (ms : Nat) (c : Course ε α) : Course ε α :=
  ⟨c.events.map fun (moment, event) => (ms + moment, event), c.outcome.delay ms⟩

/-- Go on from the outcome. -/
def bind (c : Course ε α) (next : α → Course ε β) : Course ε β :=
  match c.outcome with
  | .never => ⟨c.events, .never⟩
  | .after ms value =>
    let rest := (next value).delay ms
    ⟨c.events ++ rest.events, rest.outcome⟩

instance : Monad (Course ε) where
  pure := done
  bind := bind

/-- Give the course up at a limit and go on with `late`, unless it is over by then. -/
def within (c : Course ε α) (limit : Nat) (late : Course ε α) : Course ε α :=
  match c.outcome with
  | .after ms value => if ms ≤ limit then ⟨c.events, .after ms value⟩ else giveUp
  | .never => giveUp
where
  giveUp : Course ε α :=
    let rest := late.delay limit
    ⟨c.events.filter (fun (moment, _) => moment ≤ limit) ++ rest.events, rest.outcome⟩

/-- What happens, in its order. -/
def happenings (c : Course ε α) : List ε := c.events.map (·.2)

@[simp] theorem delay_zero (c : Course ε α) : c.delay 0 = c := by
  rcases c with ⟨events, outcome⟩
  simp [delay]

@[simp] theorem happenings_delay (ms : Nat) (c : Course ε α) :
    (c.delay ms).happenings = c.happenings := by
  simp [delay, happenings, Function.comp_def]

@[simp] theorem happenings_note (events : List ε) : (note events).happenings = events := by
  simp [note, happenings, Function.comp_def]

@[simp] theorem outcome_bind (c : Course ε α) (next : α → Course ε β) :
    (c.bind next).outcome = c.outcome.bind fun value => (next value).outcome := by
  rcases c with ⟨events, _ | _⟩ <;> rfl

/-- Going on from an outcome that is there is just what comes next. -/
@[simp] theorem done_bind (value : α) (next : α → Course ε β) :
    (done value).bind next = next value := by
  rcases h : next value with ⟨events, outcome⟩
  simp [bind, done, Eventual.now, h]

end Course

end SigningProxy
