import SigningProxy.Proofs.Forward.Outcome

/-!
# An exchange in one equation

The key has its say in an exchange in two places: in the request that is given to the carrier, and in the
records about the store. Both are written down here as functions of the store's answer, and an exchange is
put together from them in one equation. What is known of an exchange for any key, or for two keys, is read
off there.
-/

namespace SigningProxy

variable {σ : Type}

/-- What a carrier makes of what it is given, if anything: the outcome, its memory, and its calls. -/
def Carrier.carry (inner : Carrier σ) (memory : σ) :
    Except ForwardError Request → Exchange Outcome × σ × List Request
  | .error cause => (return .error cause, memory, [])
  | .ok outbound => ((inner outbound memory).1, (inner outbound memory).2, [outbound])

namespace Gateway

variable (g : Gateway) (signer : Signer) (files : FileTree) (now : Int64) (inner : Carrier σ)
  (client : Option IpAddress) (request : Request) (store : KeyStore) (memory : σ)

/-- A request that can be addressed to the backend gets as far as the key. -/
def asksKey : Bool := (g.backend.readdress request).isOk

/-- The request that the carrier is given, or why it is given none, by what is answered for the key. -/
def given (answer : Except KeyError Key) : Except ForwardError Request := do
  let unsigned ← g.outbound client request
  let key ← answer.mapError .key
  (signer.signed now key unsigned).mapError .sign

/-- What is told when the key has been asked for. -/
def toldOfKey (asked : KeyStore.Answer) : List Record :=
  match asked.result with
  | .error cause => asked.log ++ [keyUnavailable cause]
  | .ok _ => asked.log

/-- What is told before anything is carried. -/
def toldBefore (asked : KeyStore.Answer) : List Record :=
  if g.asksKey request then toldOfKey asked else []

/-- The store after an exchange. -/
def storeAfter : KeyStore := if g.asksKey request then (store.value files).store else store

variable {g request store}

theorem asksKey_of_error {cause : ForwardError} (hout : g.outbound client request = .error cause) :
    g.asksKey request = false := by
  unfold outbound at hout
  rw [asksKey]
  cases hready : g.backend.readdress request with
  | error _ => rfl
  | ok readdressed =>
      rw [hready] at hout
      cases hout

theorem asksKey_of_ok {unsigned : Request} (hout : g.outbound client request = .ok unsigned) :
    g.asksKey request = true := by
  unfold outbound at hout
  rw [asksKey]
  cases hready : g.backend.readdress request with
  | error _ =>
      rw [hready] at hout
      cases hout
  | ok readdressed => rfl

variable {client}

theorem given_of_error {cause : ForwardError} (hout : g.outbound client request = .error cause)
    (answer : Except KeyError Key) : g.given signer now client request answer = .error cause := by
  rw [given, hout]
  rfl

theorem given_of_no_key {unsigned : Request} (hout : g.outbound client request = .ok unsigned)
    (cause : KeyError) : g.given signer now client request (.error cause) = .error (.key cause) := by
  rw [given, hout]
  rfl

theorem given_of_key {unsigned : Request} (hout : g.outbound client request = .ok unsigned)
    (key : Key) :
    g.given signer now client request (.ok key) = (signer.signed now key unsigned).mapError .sign := by
  rw [given, hout]
  rfl

variable (g request store client)

/-- **An exchange in one equation.** -/
theorem serve_eq_given :
    g.serve signer files now inner client request store memory =
      ⟨do g.reply request (← (do
          Exchange.tell (g.toldBefore request (store.value files))
          (inner.carry memory (g.given signer now client request (store.value files).result)).1)),
        g.storeAfter files request store,
        (inner.carry memory (g.given signer now client request (store.value files).result)).2.1,
        (inner.carry memory (g.given signer now client request (store.value files).result)).2.2⟩ := by
  rcases hout : g.outbound client request with cause | unsigned
  · have hasks := asksKey_of_error client hout
    -- Telling nothing and failing at once is the failure alone.
    have hreply : g.reply request (.error cause) =
        (do g.reply request (← (do Exchange.tell []; return .error cause))) :=
      (Course.done_bind (Except.error cause) (g.reply request)).symm
    simp only [serve_of_error inner memory hout, given_of_error signer now hout, toldBefore,
      storeAfter, hasks]
    rw [hreply]
    rfl
  · have hasks := asksKey_of_ok client hout
    rcases hkey : (store.value files).result with cause | key
    · simp only [given_of_no_key signer now hout, toldBefore, storeAfter, hasks, toldOfKey, hkey,
        if_true]
      apply serve_of_ok _ _ hout
      simp only [signing, hkey, Carrier.carry]
    · have hgiven := given_of_key signer now hout key
      rcases hsigned : signer.signed now key unsigned with cause | outbound
      · have hfailed : g.given signer now client request (.ok key) = .error (.sign cause) := by
          rw [hgiven, hsigned]
          rfl
        simp only [hfailed, toldBefore, storeAfter, hasks, toldOfKey, hkey, if_true]
        apply serve_of_ok _ _ hout
        simp only [signing, hkey, hsigned, Carrier.carry]
      · have hready : g.given signer now client request (.ok key) = .ok outbound := by
          rw [hgiven, hsigned]
          rfl
        simp only [hready, toldBefore, storeAfter, hasks, toldOfKey, hkey, if_true]
        apply serve_of_ok _ _ hout
        simp only [signing, hkey, hsigned, Carrier.carry, Carrier.watched, List.nil_append]

end Gateway

end SigningProxy
