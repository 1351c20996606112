import SigningProxy.Backend.Basic
import SigningProxy.Backend.Joining
import SigningProxy.Forward.Error
import SigningProxy.Http.Authority
import SigningProxy.Http.Message

/-!
# Addressing a request to the backend

The backend's scheme and authority take the place of the request's, and its path and query come
before the request's own. Only the address of the request changes. A port that no connection could
be made to is found first.
-/

namespace SigningProxy

/-- An authority to which a connection could be made. -/
def checkPort (authority : String) : Except ForwardError Unit :=
  match Authority.badPort? authority with
  | some port => .error (.invalidPort port)
  | none => .ok ()

namespace Backend

/-- The text of the path and query under which the backend is asked for an address. -/
def pathAndQuery (b : Backend) (uri : Uri) : String :=
  let path := joinPath b.path uri.path
  match joinQuery b.query uri.query with
  | some query => path ++ "?" ++ query
  | none => path

/-- The address at the backend that stands for a request's address. -/
def addressFor (b : Backend) (uri : Uri) : Except ForwardError Uri := do
  checkPort b.authority
  (Uri.build b.scheme.text b.authority (b.pathAndQuery uri)).mapError .invalidRequest

/-- Point a request at the backend. -/
def readdress (b : Backend) (request : Request) : Except ForwardError Request := do
  let uri ← b.addressFor request.uri
  return { request with uri }

end Backend

end SigningProxy
