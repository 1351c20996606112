import Mathlib.Data.List.Forall2
import SigningProxy.Proofs.Forward.Given
import SigningProxy.Proofs.Forward.Heard
import SigningProxy.Proofs.Key.Redacted
import SigningProxy.Proofs.Token.Verify

/-!
# An exchange does not tell the key

The key goes into an exchange through the store's answer. What is told of the answer is the same whatever the
key, and the request that is given to the carrier is the same up to the last part of its token. From there on
everything is made of what the carrier brings back. A backend that looks at signatures might of course tell
what it sees, so the carriers here ignore the token.
-/

namespace SigningProxy

/-! ### Requests up to their signatures -/

/-- Tokens that are the same up to the last of their three parts, which is as long in both. -/
def FieldValue.SameButSignature (value value' : FieldValue) : Prop :=
  ∃ header payload signature signature' : List UInt8,
    (Token.dot ∉ header ∧ Token.dot ∉ payload ∧ Token.dot ∉ signature ∧ Token.dot ∉ signature') ∧
    value.bytes = header ++ Token.dot :: payload ++ Token.dot :: signature ∧
    value'.bytes = header ++ Token.dot :: payload ++ Token.dot :: signature' ∧
    signature.length = signature'.length

theorem Token.sameButSignature_value (c : Claims) (key key' : Key) :
    (value c key).SameButSignature (value c key') := by
  refine ⟨_, _, _, _, ⟨dot_notMem_encode _, dot_notMem_encode _, dot_notMem_encode _,
    dot_notMem_encode _⟩, rfl, rfl, ?_⟩
  rw [Base64.length_encode_of_unpadded rfl, Base64.length_encode_of_unpadded rfl, Hmac.length_mac,
    Hmac.length_mac]

/-- The request with this token and no other. -/
def Request.withToken (request : Request) (value : FieldValue) : Request :=
  { request with headers := request.headers.insert Token.field value }

/-- One request with tokens that are the same up to their signatures. -/
def Request.SameButSignature (seen seen' : Request) : Prop :=
  ∃ request value value', seen = withToken request value ∧ seen' = withToken request value' ∧
    value.SameButSignature value'

/-- What is given to a carrier: nothing for one reason, or one request up to its signature. -/
inductive GivenAlike : Except ForwardError Request → Except ForwardError Request → Prop
  | refused (cause : ForwardError) : GivenAlike (.error cause) (.error cause)
  | ready {seen seen' : Request} (hsame : seen.SameButSignature seen') :
    GivenAlike (.ok seen) (.ok seen')

/-! ### Carriers -/

/-- Of the carrier the same is heard whatever token a request carries. -/
def Carrier.IgnoresToken (inner : Carrier Unit) : Prop :=
  ∀ (request : Request) (value value' : FieldValue),
    (inner (request.withToken value) ()).1.heard = (inner (request.withToken value') ()).1.heard

/-- A script says what becomes of a request whatever its fields are. -/
theorem Script.ignoresToken (script : Script) : Carrier.IgnoresToken script.carrier := by
  intro request value value'
  refine Exchange.heard_bind_congr rfl fun body => ?_
  exact Exchange.heard_bind_congr rfl fun _ => rfl

theorem Carrier.carry_alike {inner : Carrier Unit} (hignores : inner.IgnoresToken)
    {given given' : Except ForwardError Request} (halike : GivenAlike given given') :
    (inner.carry () given).1.heard = (inner.carry () given').1.heard ∧
      List.Forall₂ Request.SameButSignature (inner.carry () given).2.2 (inner.carry () given').2.2 := by
  cases halike with
  | refused cause => exact ⟨rfl, .nil⟩
  | ready hsame =>
      refine ⟨?_, .cons hsame .nil⟩
      obtain ⟨request, value, value', rfl, rfl, -⟩ := hsame
      exact hignores request value value'

/-! ### Exchanges -/

namespace Gateway

variable (g : Gateway) (issuer : String) (now : Int64) (client : Option IpAddress) (request : Request)

theorem given_alike {answer answer' : Except KeyError Key}
    (hsame : answer.map (fun _ => Key.zero) = answer'.map fun _ => Key.zero) :
    GivenAlike (g.given (Token.signer issuer) now client request answer)
      (g.given (Token.signer issuer) now client request answer') := by
  rcases hout : g.outbound client request with cause | unsigned
  · rw [given_of_error _ _ hout, given_of_error _ _ hout]
    exact .refused cause
  · rcases answer with cause | key <;> rcases answer' with cause' | key' <;> cases hsame
    · rw [given_of_no_key _ _ hout]
      exact .refused (.key cause)
    · rw [given_of_key _ _ hout, given_of_key _ _ hout, Signer.signed, Signer.signed,
        Token.signer_sign, Token.signer_sign]
      exact .ready ⟨unsigned, _, _, rfl, rfl, Token.sameButSignature_value _ key key'⟩

theorem toldOfKey_redacted (asked : KeyStore.Answer) : toldOfKey asked.redacted = toldOfKey asked := by
  obtain ⟨_ | _, after, log⟩ := asked <;> rfl

theorem toldBefore_redacted (asked : KeyStore.Answer) :
    g.toldBefore request asked.redacted = g.toldBefore request asked := by
  rw [toldBefore, toldBefore, toldOfKey_redacted]

theorem storeAfter_redacted (files : FileTree) (store : KeyStore) :
    g.storeAfter (files.recode Key.redact) request store.redacted =
      (g.storeAfter files request store).redacted := by
  rw [storeAfter, storeAfter, KeyStore.value_redacted]
  cases g.asksKey request <;> rfl

/-- **An exchange does not tell the key.** -/
theorem serve_alike {store store' : KeyStore} {files files' : FileTree} {inner : Carrier Unit}
    (hignores : inner.IgnoresToken) (hstore : store.redacted = store'.redacted)
    (hfiles : files.recode Key.redact = files'.recode Key.redact) :
    let served := g.serve (Token.signer issuer) files now inner client request store ()
    let served' := g.serve (Token.signer issuer) files' now inner client request store' ()
    served.exchange.heard = served'.exchange.heard ∧
      List.Forall₂ Request.SameButSignature served.calls served'.calls ∧
      served.store.redacted = served'.store.redacted := by
  have hasked : (store.value files).redacted = (store'.value files').redacted := by
    rw [← KeyStore.value_redacted, ← KeyStore.value_redacted, hstore, hfiles]
  obtain ⟨hheard, hcalls⟩ := Carrier.carry_alike hignores
    (g.given_alike issuer now client request (congrArg KeyStore.Answer.result hasked))
  rw [serve_eq_given, serve_eq_given]
  dsimp only
  refine ⟨?_, hcalls, ?_⟩
  · rw [← toldBefore_redacted, hasked, toldBefore_redacted]
    exact Exchange.heard_bind_congr (Exchange.heard_bind_congr rfl fun _ => hheard) fun _ => rfl
  · rw [← storeAfter_redacted, hstore, hfiles, storeAfter_redacted]

end Gateway

end SigningProxy
