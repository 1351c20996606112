import SigningProxy.Forward.Carrier
import SigningProxy.Forward.Hops
import SigningProxy.Forward.Readdress

/-!
# The gateway

The gateway stands between the clients and the backend. A request is addressed to the backend, loses
the fields of its last hop, gets the client's address and the proxy's version, and is given to a
carrier. The response loses the fields of its hop too and goes back to the client; a failure goes
back as a response that carries its message.
-/

namespace SigningProxy

variable {σ : Type}

/-- The field that announces the proxy's version. -/
def FieldName.proxyVersion : FieldName := ⟨"authpx-version", by decide⟩

structure Gateway where
  backend : Backend
  announced : Option FieldValue
  deriving DecidableEq, Repr

namespace Gateway

def versionRefused (version : String) : Record :=
  ⟨.warn, .gateway,
    s!"Version {Text.quoted version} is not a valid header value and will not be sent"⟩

/-- A gateway that announces a version, unless the version is empty or no value of a field. -/
def new (backend : Backend) (version : String) : Gateway × List Record :=
  match FieldValue.ofString? version with
  | none => (⟨backend, none⟩, [versionRefused version])
  | some value => (⟨backend, if value.bytes.isEmpty then none else some value⟩, [])

/-- The header of a request as the backend gets it. -/
def outboundHeaders (g : Gateway) (client : Option IpAddress) (headers : Headers) : Headers :=
  let headers := headers.stripHops
  let headers := match client with
    | some ip => headers.appendForwarded ip
    | none => headers
  match g.announced with
  | some version => headers.insert .proxyVersion version
  | none => headers

/-- The request as it is given to the carrier. -/
def outbound (g : Gateway) (client : Option IpAddress) (request : Request) :
    Except ForwardError Request := do
  let request ← g.backend.readdress request
  return { request with
    version := .http11
    headers := g.outboundHeaders client request.headers }

def failed (g : Gateway) (request : Request) (cause : ForwardError) : Record :=
  ⟨.error, .gateway, s!"HTTP proxy error for {request.method.text} {request.uri.path} -> " ++
    s!"{g.backend.text}: {cause.message}"⟩

def answered (g : Gateway) (request : Request) (status : Status) : Record :=
  ⟨.debug, .gateway, s!"{request.method.text} {request.uri.path} -> " ++
    s!"{g.backend.text}{request.uri.path} answered {status.text}"⟩

/-- What the client gets. -/
def reply (g : Gateway) (request : Request) : Outcome → Exchange Response
  | .error cause => do
    Exchange.tell [g.failed request cause]
    return Response.ofText .badGateway cause.message
  | .ok response => do
    Exchange.tell [g.answered request response.status]
    return { response with headers := response.headers.stripHops }

/-- Handle a request. A failure is answered like anything else. -/
def handle (g : Gateway) (carrier : Carrier σ) (client : Option IpAddress) (request : Request)
    (memory : σ) : Exchange Response × σ :=
  match g.outbound client request with
  | .error cause => (g.reply request (.error cause), memory)
  | .ok outbound =>
    let (exchange, memory) := carrier outbound memory
    (do g.reply request (← exchange), memory)

end Gateway

end SigningProxy
