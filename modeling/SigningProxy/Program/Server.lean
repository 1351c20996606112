import SigningProxy.Forward.Deadline
import SigningProxy.Network.Client

/-!
# Serving

The server listens on a socket and lets every request through the gateway in the name of the address
that it comes from, until it is asked to stop.
-/

namespace SigningProxy.Server

/-- The system refuses the socket. -/
structure ListenError where
  code : Int
  deriving DecidableEq, Repr

/-- The failure, followed by what caused it. -/
def ListenError.chain (e : ListenError) : List String :=
  [s!"error creating server listener: {systemText e.code}", systemText e.code]

def ListenError.message (e : ListenError) : String := e.chain.headD ""

/-- Told when requests can come in. -/
def running (address : String) : Record :=
  ⟨.info, .server, s!"Reverse Proxy Server running on {address}"⟩

def stopped : Record := ⟨.info, .server, "Reverse Proxy Server stopped"⟩

/-- Begin to listen. The socket is told of under the name `shown`. -/
def listen (host : Host) (address : SocketAddress) (shown : String) :
    Except ListenError (List Record) :=
  match host.listen address with
  | .error code => .error ⟨code⟩
  | .ok () => .ok [running shown]

/-- The address of a server, as a client has to connect to it. -/
def address : Uri := ⟨some "http", some "127.0.0.1", "/", none⟩

/-- Connect to the server from the host that it runs on. -/
def visit (host : Host) : Except ClientError Unit :=
  match ((host.connector .standard).request address).value? with
  | some (.error cause) => .error (.connect cause)
  | _ => .ok ()

/-- The whole life of a server: it begins to listen, visitors come, and it is asked to stop. -/
def life (host : Host) (address : SocketAddress) (shown : String) (visitors : Nat) :
    Except ListenError (List (Except ClientError Unit) × List Record) := do
  let log ← listen host address shown
  return (List.replicate visitors (visit host), log ++ [stopped])

end SigningProxy.Server
