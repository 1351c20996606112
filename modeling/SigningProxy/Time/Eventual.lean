/-!
# Virtual time

Waiting costs nothing here: a moment is a count of milliseconds since the start, and what happens is
settled by which moments come first. `Eventual α` is a value that arrives at a moment or never does.
A limit lets through what arrives up to it, the limit itself included. Nothing comes between two
moments, so a limit that lies there is the moment before it.
-/

namespace SigningProxy

/-- A value that arrives at some moment, or never. -/
inductive Eventual (α : Type) where
  | after (ms : Nat) (value : α)
  | never
  deriving DecidableEq, Repr, Inhabited

namespace Eventual

variable {α β : Type}

/-- Already there. -/
def now (value : α) : Eventual α := .after 0 value

def map (f : α → β) : Eventual α → Eventual β
  | .after ms value => .after ms (f value)
  | .never => .never

/-- The same arrival, counted from `ms` later. -/
def delay (ms : Nat) : Eventual α → Eventual α
  | .after later value => .after (ms + later) value
  | .never => .never

/-- What `f` makes of the value, started when the value arrives. -/
def bind (e : Eventual α) (f : α → Eventual β) : Eventual β :=
  match e with
  | .after ms value => (f value).delay ms
  | .never => .never

/-- The arrival if it comes within the limit, and `late` at the limit otherwise. -/
def within (limit : Nat) (late : α) : Eventual α → Eventual α
  | .after ms value => if ms ≤ limit then .after ms value else .after limit late
  | .never => .after limit late

@[simp] theorem delay_zero (e : Eventual α) : e.delay 0 = e := by
  rcases e with _ | _ <;> simp [delay]

@[simp] theorem now_bind (value : α) (f : α → Eventual β) : (now value).bind f = f value :=
  delay_zero (f value)

theorem delay_delay (e : Eventual α) (first second : Nat) :
    (e.delay first).delay second = e.delay (second + first) := by
  cases e with
  | after ms value => simp only [delay, Nat.add_assoc]
  | never => rfl

theorem map_delay (e : Eventual α) (f : α → β) (ms : Nat) : (e.delay ms).map f = (e.map f).delay ms := by
  cases e <;> rfl

theorem map_map {γ : Type} (e : Eventual α) (f : α → β) (g : β → γ) :
    (e.map f).map g = e.map fun value => g (f value) := by
  cases e <;> rfl

theorem bind_map {γ : Type} (e : Eventual α) (f : α → Eventual β) (g : β → γ) :
    (e.bind f).map g = e.bind fun value => (f value).map g := by
  cases e with
  | after ms value => exact map_delay (f value) g ms
  | never => rfl

/-- The value if it has arrived by the moment. -/
def arrived? (moment : Nat) : Eventual α → Option α
  | .after ms value => if ms ≤ moment then some value else none
  | .never => none

/-- The value, whenever it arrives. -/
def value? : Eventual α → Option α
  | .after _ value => some value
  | .never => none

end Eventual

end SigningProxy
