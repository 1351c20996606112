import SigningProxy.Address
import SigningProxy.Forward.Carrier
import SigningProxy.Network.Connector
import SigningProxy.Network.Timeouts

/-!
# The host

What the program needs of the machine it runs on: sockets to listen on, and connections to
elsewhere. A host without any network is one that the program may well run on. It lets a socket
listen nearly everywhere, but nothing can be reached from it.
-/

namespace SigningProxy

/-- An open connection: what becomes of a request that is sent over it. -/
abbrev Link := Request → Exchange (Except ClientError Response)

/-- Refusals are told as the system's number for them. -/
structure Host where
  listen : SocketAddress → Except Int Unit
  connector : Timeouts → Connector ConnectError Link

namespace Host

/-- The system's numbers for a refusal. -/
def accessDenied : Int := 13

def invalidArgument : Int := 22

def addressNotAvailable : Int := 99

def networkUnreachable : Int := 101

/-- The ports that only the system's own services may listen on. -/
def isReservedPort (port : Nat) : Bool := 0 < port && port < 1024

/-- Where a socket of the colon form may listen when no interface has an address. -/
def listenColons (groups : List UInt16) (scope : Nat) : Except Int Unit :=
  let first := (groups.headD 0).toNat
  let isLinkLocal := 0xFE80 ≤ first && first ≤ 0xFEBF
  if groups.all (· == 0) then .ok ()
  else if groups.take 6 = [0, 0, 0, 0, 0, 0xFFFF] then .ok ()
  else if 0xFF00 ≤ first then .error invalidArgument
  else if isLinkLocal && scope == 0 then .error invalidArgument
  else .error addressNotAvailable

/-- A host without a network. -/
def isolated : Host where
  listen address :=
    if isReservedPort address.port then .error accessDenied
    else
      match address.ip with
      | .v4 .. => .ok ()
      | .v6 groups _ => listenColons groups address.scope
  connector _ := ⟨.ok (), fun _ => .now (.error (.refused networkUnreachable))⟩

end Host

end SigningProxy
