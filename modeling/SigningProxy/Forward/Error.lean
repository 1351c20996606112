import SigningProxy.Files.FileError
import SigningProxy.Http.Uri
import SigningProxy.Key.Store
import SigningProxy.Token.Signer

/-!
# Why a request cannot be forwarded

Every failure on the way to the backend ends up as one of these causes, and the cause's message is
what the client is told.
-/

namespace SigningProxy

/-- Why there is no connection: the system refuses it, its handshake takes too long, or there is something else,
which the connector says in its own words. -/
inductive ConnectError where
  | refused (code : Int)
  | handshakeTimeout
  | other (text : String)
  deriving DecidableEq, Repr

def handshakeTimeoutMessage : String := "TLS handshake timeout"

def ConnectError.message : ConnectError → String
  | .refused code => s!"tcp connect error: {systemText code}"
  | .handshakeTimeout => handshakeTimeoutMessage
  | .other text => text

/-- Failures of the HTTP client. Some it finds before anything is sent; whatever goes wrong on an open connection
it says in its own words. -/
inductive ClientError where
  | absoluteFormRequired
  | unsupportedVersion
  | unsupportedMethod
  | connect (cause : ConnectError)
  | other (text : String)
  deriving DecidableEq, Repr

def ClientError.message : ClientError → String
  | .absoluteFormRequired => "client requires absolute-form URIs"
  | .unsupportedVersion => "request has unsupported HTTP version"
  | .unsupportedMethod => "request has unsupported HTTP method"
  | .connect cause => s!"error trying to connect: {cause.message}"
  | .other text => text

inductive ForwardError where
  | invalidPort (port : String)
  | handshakeTimeout
  | headerTimeout
  | invalidRequest (cause : UriError)
  | client (cause : ClientError)
  | key (cause : KeyError)
  | sign (cause : SignError)
  deriving DecidableEq, Repr

def ForwardError.message : ForwardError → String
  | .invalidPort port => s!"dial tcp: invalid port {port}"
  | .handshakeTimeout => handshakeTimeoutMessage
  | .headerTimeout => "net/http: timeout awaiting response headers"
  | .invalidRequest cause => s!"invalid upstream request: {cause.message}"
  | .client cause => cause.message
  | .key cause => cause.message
  | .sign cause => cause.message

end SigningProxy
