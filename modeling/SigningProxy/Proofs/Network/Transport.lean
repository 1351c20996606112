import SigningProxy.Network.Transport
import SigningProxy.Proofs.Except
import SigningProxy.Proofs.Forward.Deadline

/-!
# What the network brings back

Once the port has been found good, whatever keeps a request from being answered is told by the client, or it
is the limit on the answer. The port is never blamed again.
-/

namespace SigningProxy

/-- The exchange does not end with a bad port. -/
def Exchange.SparesPort (e : Exchange Outcome) : Prop :=
  ∀ port, e.outcome.value? ≠ some (.error (.invalidPort port))

theorem Eventual.value?_map {α β : Type} (e : Eventual α) (f : α → β) :
    (e.map f).value? = e.value?.map f := by
  cases e <;> rfl

theorem Eventual.value?_within {α : Type} (e : Eventual α) (limit : Nat) (late : α) :
    (e.within limit late).value? = e.value? ∨ (e.within limit late).value? = some late := by
  cases e with
  | after ms value =>
      rw [Eventual.within]
      split
      · exact .inl rfl
      · exact .inr rfl
  | never => exact .inr rfl

namespace Network

/-! ### Limits that fit together -/

variable {timeouts : Timeouts}

theorem ofTimeouts?_eq_none (hbudget : timeouts.connectBudget? = none) : ofTimeouts? timeouts = none := by
  rw [ofTimeouts?]
  split
  · next budget hsome =>
    rw [hbudget] at hsome
    cases hsome
  · rfl

theorem ofTimeouts?_eq_some {budget : Duration} (hbudget : timeouts.connectBudget? = some budget) :
    ofTimeouts? timeouts = some ⟨timeouts, budget, hbudget⟩ := by
  rw [ofTimeouts?]
  split
  · next other hsome =>
    have heq : budget = other := by
      rw [hbudget] at hsome
      exact Option.some.inj hsome
    subst heq
    rfl
  · next hnone =>
    rw [hbudget] at hnone
    cases hnone

/-! ### Bad ports -/

variable {n : Network} {host : Host} {request : Request}

theorem sparesPort_awaitHeader {limit : Duration} {upload : Eventual Signal} {e : Exchange Outcome}
    (he : e.SparesPort) : (awaitHeader limit upload e).SparesPort := by
  intro port
  cases upload with
  | never => exact he port
  | after written _ =>
      rw [awaitHeader, Course.outcome_within rfl]
      rcases Eventual.value?_within e.outcome (written + limit.millis) (.error .headerTimeout)
        with hin | hlate
      · rw [hin]
        exact he port
      · rw [hlate]
        simp

theorem outcome_carried (sent : Exchange (Except ClientError Response)) :
    Course.outcome (do return (← sent).mapError .client : Exchange Outcome) =
      sent.outcome.map (·.mapError .client) := by
  change (sent.bind fun result => Course.done (result.mapError ForwardError.client)).outcome = _
  rw [Course.outcome_bind]
  exact Eventual.bind_now _ _

theorem sparesPort_exchange (send : Request → Exchange (Except ClientError Response)) :
    (n.exchange send request).SparesPort := by
  have hcarried : ∀ request, Exchange.SparesPort
      (do return (← send request).mapError ForwardError.client) := by
    intro request port
    rw [outcome_carried, Eventual.value?_map]
    -- An error of the client stays one of the client.
    intro hblamed
    obtain ⟨sent, -, hsent⟩ := Option.map_eq_some_iff.mp hblamed
    obtain ⟨cause, -, hcause⟩ := Except.mapError_eq_error.mp hsent
    cases hcause
  rw [exchange]
  cases n.timeouts.header with
  | none => exact hcarried request
  | some limit => exact sparesPort_awaitHeader (hcarried _)

/-- A request whose port is good goes to the client. -/
theorem outcome_carrier (hport : request.uri.authority.elim (.ok ()) checkPort = .ok ()) :
    (n.carrier host request ()).1.outcome =
      (n.exchange (Client.send (n.connector host)) request).outcome := by
  rw [carrier, hport]
  change (Course.bind (Exchange.tell [sending request]) fun _ => n.exchange _ request).outcome = _
  rw [Course.outcome_bind]
  exact Eventual.now_bind () fun _ => (n.exchange _ request).outcome

/-- **A request whose port is good never comes back with a bad one.** -/
theorem sparesPort_carrier (hport : request.uri.authority.elim (.ok ()) checkPort = .ok ()) :
    (n.carrier host request ()).1.SparesPort := by
  intro port
  rw [outcome_carrier hport]
  exact sparesPort_exchange _ port

end Network

end SigningProxy
