import SigningProxy.Forward.Carrier
import SigningProxy.Network.Upload

/-!
# The upload and the answer, turn by turn

Two tasks are at work when the time for an answer is limited. One hands the body on. The other waits for
the answer and for the signal at once and goes by what it sees first, looking at them in any order; after
the signal it waits for the answer alone, until its deadline. A task may take a turn whenever there is
something for it to do, and time passes only while there is nothing to do for either. Whatever happens is
a list of turns.
-/

namespace SigningProxy

/-- What the task that waits is waiting for. -/
inductive Wait where
  | either
  | answer (deadline : Nat)
  | returned (moment : Nat) (outcome : Outcome)

/-- Both tasks, and the clock. `source` is what is left of the body, `since` is when the last piece was
handed on. -/
structure Race where
  now : Nat
  source : Body
  since : Nat
  pieces : List (Nat × Piece)
  signal : Option Signal
  wait : Wait

namespace Race

/-- What can happen next. -/
inductive Turn where
  | handOn
  | look (answerFirst : Bool)
  | pass

/-- Nothing has been done yet, but a body with nothing to come needs no piping. -/
def start (b : Body) : Race where
  now := 0
  source := b
  since := 0
  pieces := []
  signal := if b.isOver then some .given else none
  wait := .either

/-- Hand on the next chunk if it is there, or what comes behind the last one. -/
def handOn? (r : Race) : Option Race :=
  match r.signal, r.source.chunks with
  | some _, _ => none
  | none, (wait, bytes) :: rest =>
    if r.since + wait ≤ r.now then
      some { r with
        source := { r.source with chunks := rest }
        since := r.now
        pieces := r.pieces ++ [(r.now, .chunk bytes)] }
    else none
  | none, [] =>
    ((r.source.ending.delay r.since).arrived? r.now).map fun (pieces, signal) =>
      { r with
        since := r.now
        pieces := r.pieces ++ pieces.map ((r.now, ·))
        signal := some signal }

variable (limit : Nat) (answer : Eventual (Except ClientError Response))

/-- Return the answer if it is there. -/
def answered? (r : Race) : Option Race :=
  (answer.arrived? r.now).map fun result => { r with wait := .returned r.now (result.mapError .client) }

/-- Look whether there is something to go by. -/
def look? (answerFirst : Bool) (r : Race) : Option Race :=
  match r.wait with
  | .either =>
    let written? := r.signal.map fun _ => { r with wait := .answer (r.now + limit) }
    if answerFirst then (r.answered? answer).or written? else written?.or (r.answered? answer)
  | .answer deadline =>
    -- The answer is looked for first, and so it may come at the deadline itself.
    (r.answered? answer).or
      (if deadline ≤ r.now then some { r with wait := .returned r.now (.error .headerTimeout) } else none)
  | .returned _ _ => none

/-- Time passes while there is nothing to do. -/
def pass (r : Race) : Race :=
  if r.handOn?.isNone && (r.look? limit answer true).isNone then { r with now := r.now + 1 } else r

/-- A turn in which there is nothing to do changes nothing. -/
def step (r : Race) : Turn → Race
  | .handOn => r.handOn?.getD r
  | .look answerFirst => (r.look? limit answer answerFirst).getD r
  | .pass => r.pass limit answer

/-- One turn after the other. -/
def run (r : Race) (turns : List Turn) : Race := turns.foldl (step limit answer) r

end Race

end SigningProxy
