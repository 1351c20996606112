import SigningProxy.Forward.Carrier
import SigningProxy.Network.Connector

/-!
# Playing the backend's part

A script says what becomes of a request: after some time a response or a failure, or never anything.
The carrier that plays it reads a request to its end, and from then on does what the script says.
-/

namespace SigningProxy

/-- What becomes of a request, once it has been received. -/
abbrev Script := Eventual Outcome

/-- The carrier that plays a script. -/
def Script.carrier (script : Script) : Carrier Unit := fun request () =>
  (do
    let body ← Course.await request.body.read
    Course.note [.received ⟨request.toRequestHead, body⟩]
    Course.await script, ())

/-- Why a played connector does not connect. -/
inductive PlayedError where
  | notReady (text : String)
  | refused (text : String)
  | late
  deriving DecidableEq, Repr

def PlayedError.message : PlayedError → String
  | .notReady text => text
  | .refused text => text
  | .late => handshakeTimeoutMessage

/-- A connector that connects to anything, or fails, when it has taken its time. -/
def Connector.played (notReady : Option String) (time : Option Nat) (failure : Option String) :
    Connector PlayedError Uri where
  ready := match notReady with
    | some text => .error (.notReady text)
    | none => .ok ()
  connect uri :=
    match time with
    | none => .never
    | some ms =>
      .after ms (match failure with
        | some text => .error (.refused text)
        | none => .ok uri)

end SigningProxy
