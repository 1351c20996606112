import SigningProxy.Forward.Deadline
import SigningProxy.Forward.Signing
import SigningProxy.Network.Transport

/-!
# A bound proxy

Binding puts together what a proxy for one backend consists of: the gateway, the network with its
limits, and the store of the key that requests are signed with. The file of the key is not looked at
yet.
-/

namespace SigningProxy

/-- In whose name requests are signed. -/
def issuer : String := "authpx"

inductive BindError where
  | backend (cause : BackendError)
  | budgetOverflow
  deriving DecidableEq, Repr

def BindError.message : BindError → String
  | .backend cause => cause.message
  | .budgetOverflow => "overflow when adding durations"

structure Binding where
  gateway : Gateway
  network : Network
  store : KeyStore

namespace Binding

def binding (backend : Backend) (secretPath : String) : Record :=
  ⟨.debug, .binding, s!"Binding upstream {backend.text} with secret {secretPath}"⟩

/-- A proxy for the backend at an address, and what is told up to a failure. -/
def new (address secretPath version : String) (timeouts : Timeouts) :
    List Record × Except BindError Binding :=
  match Backend.parse address with
  | .error cause => ([], .error (.backend cause))
  | .ok backend =>
    let start := binding backend secretPath
    match Network.ofTimeouts? timeouts with
    | none => ([start], .error .budgetOverflow)
    | some network =>
      let (gateway, log) := Gateway.new backend version
      (start :: log, .ok ⟨gateway, network, .new secretPath⟩)

/-- The carrier of a bound proxy: it signs, and sends over the host's network. -/
def carrier (b : Binding) (host : Host) (files : FileTree) (now : Int64) :
    Carrier (KeyStore × Unit) :=
  signing (Token.signer issuer) files now (b.network.carrier host)

/-- Let a request through; the store remembers its key. -/
def dispatch (b : Binding) (host : Host) (files : FileTree) (now : Int64)
    (deadline : Option Deadline) (client : Option IpAddress) (request : Request) :
    Exchange Response × Binding :=
  let (exchange, store, _) :=
    b.gateway.dispatch deadline (b.carrier host files now) client request (b.store, ())
  (exchange, { b with store })

end Binding

end SigningProxy
