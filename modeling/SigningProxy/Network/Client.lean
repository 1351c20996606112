import SigningProxy.Network.Host

/-!
# The HTTP client

The client looks at the head of a request, connects to where the request is addressed, and sends it.
A request for a tunnel may name an authority alone; any other needs an absolute address.
-/

namespace SigningProxy.Client

/-- What the client refuses without connecting. -/
def check (head : RequestHead) : Except ClientError Unit := do
  match head.version with
  | .http11 | .http2 => pure ()
  | .http10 => if head.method = Method.connect then throw .unsupportedMethod
  | .http09 | .http3 => throw .unsupportedVersion
  match head.uri.scheme, head.uri.authority with
  | some _, some _ => pure ()
  | none, some _ => if head.method ≠ Method.connect then throw .absoluteFormRequired
  | _, none => throw .absoluteFormRequired

/-- Send a request over a connection that `connector` makes. -/
def send (connector : Connector ConnectError Link) (request : Request) :
    Exchange (Except ClientError Response) :=
  match check request.toRequestHead with
  | .error cause => return .error cause
  | .ok () => do
    match ← Course.await (connector.request request.uri) with
    | .error cause => return .error (.connect cause)
    | .ok link => link request

end SigningProxy.Client
