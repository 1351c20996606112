import SigningProxy.Proofs.Forward.Exchange
import SigningProxy.Proofs.Forward.Hops

/-!
# What becomes of an exchange

An exchange has one of two courses. Either a stage fails before anything is carried, and the client is
told its cause at once; or all stages succeed, the carrier is given one request, and the client gets
what the carrier brings back. A stage that comes after the failing one leaves no trace: the result is
the same with another signer, and with other files where the key has not been asked for.

The stages are run by three functions, which know nothing of `FailsAt` and `Prepares`. One lemma for
each stage says what they do there; the rest is reading off.
-/

namespace SigningProxy

variable {σ : Type}

/-! ### Responses -/

/-- A response that tells a cause: the status 502, the type of its content as its only field, and the
message of the cause, which is there at once, as its body. -/
structure Response.Tells (response : Response) (cause : ForwardError) : Prop where
  status : response.status.code = 502
  fields : response.headers.fields = [(contentType, plainText)]
  body : response.body.read = .now (.ok (Utf8.encode cause.message))
  trailers : response.body.trailers = Headers.empty

/-- A response that passes on another one without the fields of its hop. -/
structure Response.PassesOn (response original : Response) : Prop where
  status : response.status = original.status
  version : response.version = original.version
  body : response.body = original.body
  headers : ∀ name, response.headers.values name =
    if name ∈ original.headers.hopNames then [] else original.headers.values name

theorem Body.read_ofBytes (bytes : List UInt8) : (Body.ofBytes bytes).read = .now (.ok bytes) := by
  cases bytes with
  | nil => rfl
  | cons b rest =>
      change Eventual.after (0 + 0) (Except.ok ((b :: rest) ++ [])) = _
      rw [List.append_nil]
      rfl

theorem Response.tells_ofText (cause : ForwardError) :
    (Response.ofText .badGateway cause.message).Tells cause where
  status := rfl
  fields := rfl
  body := Body.read_ofBytes _
  trailers := rfl

theorem Response.passesOn_stripHops (original : Response) :
    { original with headers := original.headers.stripHops : Response }.PassesOn original where
  status := rfl
  version := rfl
  body := rfl
  headers := Headers.values_stripHops original.headers

theorem Eventual.bind_now {α β : Type} (e : Eventual α) (f : α → β) :
    (e.bind fun value => .now (f value)) = e.map f := by
  cases e <;> rfl

/-! ### Courses -/

/-- The key has been asked for when the stage fails. -/
def Stage.asksKey : Stage → Bool
  | port | address => false
  | key | signature => true

/-- Nothing is carried, and the client is told the cause at once. -/
structure Served.Stops (served : Served σ) (cause : ForwardError) (store : KeyStore) (memory : σ) :
    Prop where
  calls : served.calls = []
  memory : served.memory = memory
  store : served.store = store
  outcome : ∃ response, served.exchange.outcome = .now response ∧ response.Tells cause

/-- One request is carried, and the client gets what comes of it, when it comes. -/
structure Served.Relays (served : Served σ) (outbound : Request) (carried : Exchange Outcome × σ)
    (store : KeyStore) : Prop where
  calls : served.calls = [outbound]
  memory : served.memory = carried.2
  store : served.store = store
  outcome : ∃ respond : Outcome → Response,
    served.exchange.outcome = carried.1.outcome.map respond ∧
      (∀ cause, (respond (.error cause)).Tells cause) ∧
      ∀ original, (respond (.ok original)).PassesOn original

namespace Gateway

variable (g : Gateway) (signer : Signer) (files : FileTree) (now : Int64) (inner : Carrier σ)
  (client : Option IpAddress) (request : Request) (store : KeyStore) (memory : σ)

/-- The response that the client gets. -/
def response : Outcome → Response
  | .error cause => .ofText .badGateway cause.message
  | .ok original => { original with headers := original.headers.stripHops }

theorem outcome_reply (outcome : Outcome) :
    (g.reply request outcome).outcome = .now (response outcome) := by
  cases outcome <;> rfl

theorem outcome_bind_reply (told : List Record) (exchange : Exchange Outcome) :
    (do g.reply request (← (do Exchange.tell told; exchange)) : Exchange Response).outcome =
      exchange.outcome.map response := by
  change ((Course.bind (Exchange.tell told) fun _ => exchange).bind (g.reply request)).outcome = _
  rw [Course.outcome_bind, Course.outcome_bind]
  simp only [outcome_reply, Eventual.bind_now]
  congr 1
  exact Eventual.now_bind () fun _ => exchange.outcome

/-! ### The stages -/

variable {g signer files now client request store}

theorem outbound_of_failsAt {stage : Stage} {cause : ForwardError}
    (hfails : g.FailsAt signer files now client request store stage cause)
    (hstage : stage.asksKey = false) : g.outbound client request = .error cause := by
  cases hfails with
  | port hport =>
      rw [outbound, Backend.readdress, Backend.addressFor, checkPort, hport]
      rfl
  | address hport huri =>
      rw [outbound, Backend.readdress, Backend.addressFor, checkPort, hport, huri]
      rfl
  | key => cases hstage
  | signature => cases hstage

theorem outbound_of_addressed {uri : Uri} (huri : g.Addressed request uri) :
    g.outbound client request = .ok (g.unsigned client request uri) := by
  rw [outbound, Backend.readdress, Backend.addressFor, checkPort, huri.1, huri.2]
  rfl

theorem serve_of_error {cause : ForwardError} (hout : g.outbound client request = .error cause) :
    g.serve signer files now inner client request store memory =
      ⟨g.reply request (.error cause), store, memory, []⟩ := by
  unfold serve handle
  rw [hout]

theorem serve_of_ok {unsigned : Request} (hout : g.outbound client request = .ok unsigned)
    {exchange : Exchange Outcome} {after : KeyStore} {remembered : σ} {calls : List Request}
    (hsigning : signing signer files now inner.watched unsigned (store, memory, []) =
      (exchange, after, remembered, calls)) :
    g.serve signer files now inner client request store memory =
      ⟨do g.reply request (← exchange), after, remembered, calls⟩ := by
  unfold serve handle
  rw [hout]
  simp only [hsigning]

/-! ### The two courses -/

variable {inner memory}

theorem stops_of_outcome {told : List Record} {cause : ForwardError} {after : KeyStore}
    {served : Served σ} (hserved : served =
      ⟨do g.reply request (← (do Exchange.tell told; return .error cause)), after, memory, []⟩) :
    served.Stops cause after memory := by
  subst hserved
  exact ⟨rfl, rfl, rfl, _, outcome_bind_reply g request told (pure (.error cause)),
    Response.tells_ofText cause⟩

theorem stops_of_failsAt {stage : Stage} {cause : ForwardError}
    (hfails : g.FailsAt signer files now client request store stage cause) :
    (g.serve signer files now inner client request store memory).Stops cause
      (if stage.asksKey then (store.value files).store else store) memory := by
  by_cases hstage : stage.asksKey = false
  · rw [serve_of_error _ _ (outbound_of_failsAt hfails hstage), hstage]
    exact ⟨rfl, rfl, rfl, _, outcome_reply g request _, Response.tells_ofText cause⟩
  · cases hfails with
    | port => exact absurd rfl hstage
    | address => exact absurd rfl hstage
    | key huri hkey =>
        apply stops_of_outcome
        apply serve_of_ok _ _ (outbound_of_addressed huri)
        simp only [signing, hkey]
        rfl
    | signature huri hkey hsign =>
        apply stops_of_outcome
        apply serve_of_ok _ _ (outbound_of_addressed huri)
        simp only [signing, hkey, Signer.signed, hsign]
        rfl

theorem relays_of_outcome {told : List Record} {outbound : Request} {after : KeyStore}
    {served : Served σ} (hserved : served =
      ⟨do g.reply request (← (do Exchange.tell told; (inner outbound memory).1)), after,
        (inner outbound memory).2, [outbound]⟩) :
    served.Relays outbound (inner outbound memory) after := by
  subst hserved
  exact ⟨rfl, rfl, rfl, response, outcome_bind_reply g request told _, Response.tells_ofText,
    Response.passesOn_stripHops⟩

theorem relays_of_prepares {outbound : Request}
    (hprepares : g.Prepares signer files now client request store outbound) :
    (g.serve signer files now inner client request store memory).Relays outbound
      (inner outbound memory) (store.value files).store := by
  cases hprepares with
  | intro huri hkey hsign =>
      apply relays_of_outcome
      apply serve_of_ok _ _ (outbound_of_addressed huri)
      simp only [signing, hkey, Signer.signed, hsign]
      rfl

variable (inner memory) in
/-- What the carrier is given is what comes out of the stages. -/
theorem mem_calls_serve {seen : Request} :
    seen ∈ (g.serve signer files now inner client request store memory).calls ↔
      g.Prepares signer files now client request store seen := by
  constructor
  · intro hseen
    rcases failsAt_or_prepares g signer files now client request store with
      ⟨stage, cause, hfails⟩ | ⟨outbound, hprepares⟩
    · rw [(stops_of_failsAt hfails).calls] at hseen
      cases hseen
    · rw [(relays_of_prepares hprepares).calls, List.mem_singleton] at hseen
      rw [hseen]
      exact hprepares
  · intro hprepares
    rw [(relays_of_prepares hprepares).calls]
    exact List.mem_singleton_self seen

/-- Before the key is asked for, the files do not matter, nor do the signer and the clock. -/
theorem serve_eq_of_not_asksKey {stage : Stage} {cause : ForwardError}
    (hfails : g.FailsAt signer files now client request store stage cause)
    (hstage : stage.asksKey = false) (signer' : Signer) (files' : FileTree) (now' : Int64) :
    g.serve signer' files' now' inner client request store memory =
      g.serve signer files now inner client request store memory := by
  have hout := outbound_of_failsAt hfails hstage
  rw [serve_of_error _ _ hout, serve_of_error _ _ hout]

/-- Before the request is signed, the signer and the clock do not matter. -/
theorem serve_eq_of_not_signature {stage : Stage} {cause : ForwardError}
    (hfails : g.FailsAt signer files now client request store stage cause)
    (hstage : stage ≠ .signature) (signer' : Signer) (now' : Int64) :
    g.serve signer' files now' inner client request store memory =
      g.serve signer files now inner client request store memory := by
  cases hfails with
  | port hport => exact serve_eq_of_not_asksKey (.port hport) rfl signer' files now'
  | address hport huri => exact serve_eq_of_not_asksKey (.address hport huri) rfl signer' files now'
  | key huri hkey =>
      unfold serve handle
      rw [outbound_of_addressed huri]
      simp only [signing, hkey]
  | signature => exact absurd rfl hstage

variable (g signer files now inner client request store memory)

/-- **An exchange takes one of two courses.** Either a stage fails, nothing is carried and the client
is told the cause, whatever the stages behind it would have done; or all succeed, exactly one request
is carried, and the client gets the response without the fields of its hop, or is told why there is
none. The requests are those of the watched carrier, which changes nothing else. -/
theorem serve_stops_or_relays :
    (g.handle (signing signer files now inner) client request (store, memory) =
      let served := g.serve signer files now inner client request store memory
      (served.exchange, served.store, served.memory)) ∧
    ((∃ stage cause,
        g.FailsAt signer files now client request store stage cause ∧
        (g.serve signer files now inner client request store memory).Stops cause
          (if stage.asksKey then (store.value files).store else store) memory ∧
        (stage ≠ .signature → ∀ signer' now',
          g.serve signer' files now' inner client request store memory =
            g.serve signer files now inner client request store memory) ∧
        (stage.asksKey = false → ∀ signer' files' now',
          g.serve signer' files' now' inner client request store memory =
            g.serve signer files now inner client request store memory) ∧
        ¬ ∃ outbound, g.Prepares signer files now client request store outbound) ∨
      ∃ outbound,
        g.Prepares signer files now client request store outbound ∧
        (g.serve signer files now inner client request store memory).Relays outbound
          (inner outbound memory) (store.value files).store ∧
        ¬ ∃ stage cause, g.FailsAt signer files now client request store stage cause) := by
  refine ⟨handle_eq_serve g signer files now inner client request store memory, ?_⟩
  rcases failsAt_or_prepares g signer files now client request store with
    ⟨stage, cause, hfails⟩ | ⟨outbound, hprepares⟩
  · refine Or.inl ⟨stage, cause, hfails, stops_of_failsAt hfails, ?_, ?_, ?_⟩
    · intro hstage signer' now'
      exact serve_eq_of_not_signature hfails hstage signer' now'
    · intro hasks signer' files' now'
      exact serve_eq_of_not_asksKey hfails hasks signer' files' now'
    · rintro ⟨outbound, hprepares⟩
      exact hfails.not_prepares hprepares
  · refine Or.inr ⟨outbound, hprepares, relays_of_prepares hprepares, ?_⟩
    rintro ⟨stage, cause, hfails⟩
    exact hfails.not_prepares hprepares

end Gateway

end SigningProxy
