import SigningProxy.Network.Connector

/-!
# An attempt to connect, look by look

Whoever wants a connection asks whether the connector is ready, has it connect, and then looks again and
again whether the connection is there. The clock of an attempt that is limited is set when the connector is
asked, and every look is for the connection first and for the clock afterwards. A look may be taken at any
time, and time passes only while there is nothing to see. Whatever happens is a list of turns.
-/

namespace SigningProxy

/-- How far an attempt has come. -/
inductive Attempt.Stage (ε α : Type) where
  | asked
  | connecting (since : Nat) (deadline : Option Nat)
  | ended (moment : Nat) (result : Except ε α)

structure Attempt (ε α : Type) where
  now : Nat
  stage : Attempt.Stage ε α

namespace Attempt

inductive Turn where
  | look
  | pass

variable {ε α : Type}

/-- An attempt that is made at some moment. -/
def start (moment : Nat) : Attempt ε α := ⟨moment, .asked⟩

variable (limit : Duration) (late : ε) (c : Connector ε α) (uri : Uri)

/-- Look whether there is something to go by. The clock shows whole milliseconds, and it is set to the last of
them within the limit. -/
def look? (a : Attempt ε α) : Option (Attempt ε α) :=
  match a.stage with
  | .asked =>
    match c.ready with
    | .error cause => some { a with stage := .ended a.now (.error cause) }
    | .ok () =>
      let deadline := if uri.isSecure then some (a.now + limit.millis) else none
      some { a with stage := .connecting a.now deadline }
  | .connecting since deadline =>
    match ((c.connect uri).delay since).arrived? a.now with
    | some result => some { a with stage := .ended a.now result }
    | none =>
      if deadline.any (· ≤ a.now) then some { a with stage := .ended a.now (.error late) } else none
  | .ended _ _ => none

/-- A turn in which there is nothing to do changes nothing. -/
def step (a : Attempt ε α) : Turn → Attempt ε α
  | .look => (a.look? limit late c uri).getD a
  | .pass => if (a.look? limit late c uri).isNone then { a with now := a.now + 1 } else a

/-- One turn after the other. -/
def run (a : Attempt ε α) (turns : List Turn) : Attempt ε α := turns.foldl (step limit late c uri) a

end Attempt

end SigningProxy
