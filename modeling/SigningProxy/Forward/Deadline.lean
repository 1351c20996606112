import SigningProxy.Duration
import SigningProxy.Forward.Gateway

/-!
# The deadline of an exchange

A client waits for a whole response, its body included, only so long. A response that is complete by
the deadline is passed on, its body collected; a body that breaks off is answered as a failure; and
at the deadline itself the exchange is given up.
-/

namespace SigningProxy

variable {σ : Type}

structure Deadline where
  duration : Duration
  message : String
  deriving DecidableEq, Repr

namespace Deadline

def standardMessage : String := "Request took too long"

/-- Ten minutes. -/
def standard : Deadline := ⟨.ofSeconds 600, standardMessage⟩

def exceeded (d : Deadline) : Record :=
  ⟨.warn, .deadline, s!"Request exceeded its {d.duration.text} budget"⟩

def bodyFailed (cause : BodyError) : Record :=
  ⟨.error, .deadline, s!"Failed to read response body: {cause.message}"⟩

/-- A response whose body has been read to its end. -/
def collect (response : Response) : Exchange Response := do
  match ← Course.await response.body.read with
  | .ok content => return { response with body := .ofBytes content }
  | .error cause =>
    Exchange.tell [bodyFailed cause]
    return Response.ofText .badGateway cause.message

/-- The answer at the deadline. -/
def giveUp (d : Deadline) : Exchange Response := do
  Exchange.tell [d.exceeded]
  return Response.ofText .serviceUnavailable d.message

/-- The response of an exchange under the deadline. Moments are whole milliseconds, and the deadline is the
last of them within its span. -/
def run (d : Deadline) (exchange : Exchange Response) : Exchange Response :=
  (exchange.bind collect).within d.duration.millis d.giveUp

end Deadline

/-- Handle a request, under a deadline if there is one. -/
def Gateway.dispatch (g : Gateway) (deadline : Option Deadline) (carrier : Carrier σ)
    (client : Option IpAddress) (request : Request) (memory : σ) : Exchange Response × σ :=
  let (exchange, memory) := g.handle carrier client request memory
  match deadline with
  | some d => (d.run exchange, memory)
  | none => (exchange, memory)

end SigningProxy
