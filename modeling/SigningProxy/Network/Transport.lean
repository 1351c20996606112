import SigningProxy.Forward.Readdress
import SigningProxy.Network.Client
import SigningProxy.Network.Upload

/-!
# Sending over the network

The carrier that really sends. A port that no connection could be made to is found before anything
is sent. Where the time for an answer is limited, the clock for it starts when the request has been
written, so that a slow upload never counts against the backend.
-/

namespace SigningProxy

/-- Limits that fit together: the budget for an encrypted connection is their dial and their
handshake. -/
structure Network where
  timeouts : Timeouts
  budget : Duration
  budget_eq : timeouts.connectBudget? = some budget

namespace Network

/-- Limits whose sum is no span of time cannot be kept. -/
def ofTimeouts? (timeouts : Timeouts) : Option Network :=
  match h : timeouts.connectBudget? with
  | some budget => some ⟨timeouts, budget, h⟩
  | none => none

def sending (request : Request) : Record :=
  ⟨.trace, .network, s!"Sending {request.method.text} {request.uri.text}"⟩

/-- The connector that the client uses. -/
def connector (n : Network) (host : Host) : Connector ConnectError Link :=
  (host.connector n.timeouts).bounded n.budget .handshakeTimeout

/-- The outcome of an exchange that must be there within the limit after the upload, however the upload
ends. The clock shows whole milliseconds, and the limit is the last of them within its span. -/
def awaitHeader (limit : Duration) (upload : Eventual Signal) (exchange : Exchange Outcome) :
    Exchange Outcome :=
  match upload with
  | .never => exchange
  | .after written _ =>
    exchange.within (written + limit.millis) (Course.done (.error .headerTimeout))

/-- Have the client send a request. -/
def exchange (n : Network) (send : Request → Exchange (Except ClientError Response))
    (request : Request) : Exchange Outcome :=
  let carried : Request → Exchange Outcome := fun request => do
    return (← send request).mapError .client
  match n.timeouts.header with
  | none => carried request
  | some limit =>
    let (body, upload) := request.body.watch
    awaitHeader limit upload (carried { request with body })

/-- Take a request over the network. -/
def carrier (n : Network) (host : Host) : Carrier Unit := fun request () =>
  match request.uri.authority.elim (.ok ()) checkPort with
  | .error cause => (return .error cause, ())
  | .ok () =>
    (do Exchange.tell [sending request]; n.exchange (Client.send (n.connector host)) request, ())

end Network

end SigningProxy
