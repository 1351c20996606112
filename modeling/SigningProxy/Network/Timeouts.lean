import SigningProxy.Duration

/-!
# Limits on a connection

How long dialling may take, how long an idle connection is probed, how long the handshake of an
encrypted connection may take, and how long the backend may think about its answer once it has the
whole request.
-/

namespace SigningProxy

structure Timeouts where
  dial : Duration
  keepAlive : Duration
  handshake : Duration
  header : Option Duration
  deriving DecidableEq, Repr

namespace Timeouts

/-- The backend may think for as long as it likes. -/
def standard : Timeouts := ⟨.ofSeconds 30, .ofSeconds 30, .ofSeconds 10, none⟩

/-- The limit on making an encrypted connection: its handshake comes after a dial that has a limit
of its own. The two together may be more than a span of time can hold. -/
def connectBudget? (t : Timeouts) : Option Duration := t.dial.add? t.handshake

end Timeouts

end SigningProxy
