import SigningProxy.Duration
import SigningProxy.Http.Uri
import SigningProxy.Time.Eventual

/-!
# Connecting

A connector makes connections to addresses, when it is ready to. Making one takes time and may fail.
An encrypted connection needs a handshake, and a connector can be bounded: then an attempt to make
an encrypted connection ends at the limit at the latest. Other connections take the time they take.
-/

namespace SigningProxy

/-- Makes connections `α`, or says why not. -/
structure Connector (ε α : Type) where
  ready : Except ε Unit
  connect : Uri → Eventual (Except ε α)

namespace Connector

variable {ε α : Type}

/-- A connector whose encrypted connections fail with `late` when they take longer than the limit, which is told
at the last whole millisecond within it. -/
def bounded (limit : Duration) (late : ε) (c : Connector ε α) : Connector ε α where
  ready := c.ready
  connect uri :=
    if uri.isSecure then (c.connect uri).within limit.millis (.error late) else c.connect uri

/-- Connect once the connector is ready. -/
def request (c : Connector ε α) (uri : Uri) : Eventual (Except ε α) :=
  match c.ready with
  | .error e => .now (.error e)
  | .ok () => c.connect uri

variable {limit : Duration} {late : ε} {c : Connector ε α} {uri : Uri}

@[simp] theorem ready_bounded : (c.bounded limit late).ready = c.ready := rfl

theorem connect_bounded_of_secure (hsecure : uri.isSecure = true) :
    (c.bounded limit late).connect uri = (c.connect uri).within limit.millis (.error late) :=
  if_pos hsecure

theorem connect_bounded_of_open (hopen : uri.isSecure = false) :
    (c.bounded limit late).connect uri = c.connect uri :=
  if_neg (Bool.eq_false_iff.mp hopen)

theorem request_of_refused {cause : ε} (hready : c.ready = .error cause) :
    c.request uri = .now (.error cause) := by
  rw [request, hready]

theorem request_of_ready (hready : c.ready = .ok ()) : c.request uri = c.connect uri := by
  rw [request, hready]

end Connector

end SigningProxy
