import SigningProxy.Proofs.Base64.Strict
import SigningProxy.Proofs.Except
import SigningProxy.Proofs.Token.Verify

/-!
# Which tokens are accepted

A token has one form for what it carries: the last part has to be written as base64 writes the code of
what stands before it, so it cannot be changed without being refused. What the payload says is not looked
at before that, and does not matter for a token that is refused because of its signature.

The signature is what stands behind the last dot, and the payload begins behind the first one. So a token
of more than three parts has a payload with dots in it, which is no base64, and is refused in any case.
-/

namespace SigningProxy.Token

variable {token header payload signature signed document : List UInt8} {key : Key} {c : Claims}

/-- A token carries a document under a key: it has three parts, its payload is the base64 of the document,
and its signature that of the code of the two parts before. -/
def Carries (token : List UInt8) (key : Key) (document : List UInt8) : Prop :=
  ∃ header payload signature, token = header ++ dot :: payload ++ dot :: signature ∧
    dot ∉ header ∧ dot ∉ payload ∧ dot ∉ signature ∧
    signature = Base64.encode Base64.urlSafe (Hmac.mac key.bytes (header ++ dot :: payload)) ∧
    payload = Base64.encode Base64.urlSafe document

/-! ### Judging by parts -/

theorem judge_of_carried (document : List UInt8) (key : Key) :
    judge signed (Base64.encode Base64.urlSafe document)
        (Base64.encode Base64.urlSafe (Hmac.mac key.bytes signed)) key =
      (Claims.read document).mapError .encode := by
  simp only [judge, Base64.decode_encode Base64.urlSafe_lawful, ne_eq, not_true_eq_false, if_false]

theorem judge_of_unsigned (payload : List UInt8)
    (hcode : Base64.decode Base64.urlSafe signature ≠ .ok (Hmac.mac key.bytes signed)) :
    judge signed payload signature key =
      .error (if (Base64.decode Base64.urlSafe signature).isOk then .mismatch else .malformed) := by
  rw [judge]
  rcases hdecode : Base64.decode Base64.urlSafe signature with cause | code
  · rfl
  · rw [hdecode] at hcode
    have hne : code ≠ Hmac.mac key.bytes signed := fun heq => hcode (congrArg Except.ok heq)
    dsimp only
    rw [if_pos hne]
    rfl

theorem judge_cases (signed payload signature : List UInt8) (key : Key) :
    judge signed payload signature key = .error .malformed ∨
      judge signed payload signature key = .error .mismatch ∨
      ∃ document, signature = Base64.encode Base64.urlSafe (Hmac.mac key.bytes signed) ∧
        payload = Base64.encode Base64.urlSafe document := by
  by_cases hcode : Base64.decode Base64.urlSafe signature = .ok (Hmac.mac key.bytes signed)
  · rcases hdocument : Base64.decode Base64.urlSafe payload with cause | document
    · left
      rw [judge, hcode, hdocument]
      simp
    · right
      right
      exact ⟨document, (Base64.decode_eq_ok_iff Base64.urlSafe_lawful).mp hcode,
        (Base64.decode_eq_ok_iff Base64.urlSafe_lawful).mp hdocument⟩
  · rw [judge_of_unsigned payload hcode]
    split
    · exact Or.inr (Or.inl rfl)
    · exact Or.inl rfl

/-! ### Taking a token apart -/

theorem verify_of_few_dots (hsigned : dot ∉ signed) (hsignature : dot ∉ signature) (key : Key) :
    verify (signed ++ dot :: signature) key = .error .malformed := by
  rw [verify, Text.cutLast?_append _ hsignature]
  dsimp only
  rw [Text.cut?_eq_none_iff.mpr hsigned]

theorem verify_of_no_dot (htoken : dot ∉ token) (key : Key) :
    verify token key = .error .malformed := by
  rw [verify, Text.cutLast?_eq_none_iff.mpr htoken]

/-- A token has parts, or it is malformed. -/
theorem parts_or_malformed (token : List UInt8) (key : Key) :
    (∃ header payload signature, token = header ++ dot :: payload ++ dot :: signature ∧
      dot ∉ header ∧ dot ∉ signature) ∨ verify token key = .error .malformed := by
  rcases hlast : Text.cutLast? dot token with _ | ⟨signed, signature⟩
  · exact Or.inr (verify_of_no_dot (Text.cutLast?_eq_none_iff.mp hlast) key)
  · obtain ⟨rfl, hsignature⟩ := Text.cutLast?_eq_some_iff.mp hlast
    rcases hfirst : Text.cut? dot signed with _ | ⟨header, payload⟩
    · exact Or.inr (verify_of_few_dots (Text.cut?_eq_none_iff.mp hfirst) hsignature key)
    · obtain ⟨rfl, hheader⟩ := Text.cut?_eq_some_iff.mp hfirst
      exact Or.inl ⟨header, payload, signature, rfl, hheader, hsignature⟩

theorem verify_of_carries (hcarries : Carries token key document) :
    verify token key = (Claims.read document).mapError .encode := by
  obtain ⟨header, payload, signature, rfl, hheader, -, hsignature, rfl, rfl⟩ := hcarries
  rw [verify_append hheader _ hsignature, judge_of_carried]

/-- Only a token that carries a document is judged by a document. -/
theorem verify_cases (token : List UInt8) (key : Key) :
    verify token key = .error .malformed ∨ verify token key = .error .mismatch ∨
      ∃ document, Carries token key document := by
  rcases parts_or_malformed token key with
    ⟨header, payload, signature, rfl, hheader, hsignature⟩ | hmalformed
  · rw [verify_append hheader _ hsignature]
    rcases judge_cases (header ++ dot :: payload) payload signature key with
      hmalformed | hmismatch | ⟨document, hcode, hpayload⟩
    · exact Or.inl hmalformed
    · exact Or.inr (Or.inl hmismatch)
    · refine Or.inr (Or.inr ⟨document, header, payload, signature, rfl, hheader, ?_, hsignature,
        hcode, hpayload⟩)
      rw [hpayload]
      exact dot_notMem_encode document
  · exact Or.inl hmalformed

theorem verify_eq_ok_iff :
    verify token key = .ok c ↔ ∃ document, Carries token key document ∧ Claims.read document = .ok c := by
  constructor
  · intro hverify
    rcases verify_cases token key with hmalformed | hmismatch | ⟨document, hcarries⟩
    · rw [hmalformed] at hverify
      cases hverify
    · rw [hmismatch] at hverify
      cases hverify
    · rw [verify_of_carries hcarries] at hverify
      exact ⟨document, hcarries, Except.mapError_eq_ok.mp hverify⟩
  · rintro ⟨document, hcarries, hread⟩
    rw [verify_of_carries hcarries]
    exact Except.mapError_eq_ok.mpr hread

theorem verify_eq_encode_iff {cause : Json.Error} :
    verify token key = .error (.encode cause) ↔
      ∃ document, Carries token key document ∧ Claims.read document = .error cause := by
  constructor
  · intro hverify
    rcases verify_cases token key with hmalformed | hmismatch | ⟨document, hcarries⟩
    · rw [hmalformed] at hverify
      cases hverify
    · rw [hmismatch] at hverify
      cases hverify
    · rw [verify_of_carries hcarries] at hverify
      obtain ⟨cause', hread, heq⟩ := Except.mapError_eq_error.mp hverify
      cases heq
      exact ⟨document, hcarries, hread⟩
  · rintro ⟨document, hcarries, hread⟩
    rw [verify_of_carries hcarries]
    exact Except.mapError_eq_error.mpr ⟨cause, hread, rfl⟩

/-- A token whose signature is not the code of what stands before it is refused, whatever its payload. -/
theorem verify_of_unsigned (hsignature : dot ∉ signature)
    (hcode : Base64.decode Base64.urlSafe signature ≠ .ok (Hmac.mac key.bytes signed)) :
    verify (signed ++ dot :: signature) key =
      .error (if dot ∈ signed ∧ (Base64.decode Base64.urlSafe signature).isOk then .mismatch
        else .malformed) := by
  by_cases hsigned : dot ∈ signed
  · obtain ⟨header, payload, rfl, hheader⟩ := List.eq_append_cons_of_mem hsigned
    rw [verify_append hheader _ hsignature, judge_of_unsigned payload hcode]
    simp only [hsigned, true_and]
  · rw [verify_of_few_dots hsigned hsignature, if_neg fun h => hsigned h.1]

theorem signature_of_verify (hheader : dot ∉ header) (hpayload : dot ∉ payload)
    (hverify : verify (header ++ dot :: payload ++ dot :: signature) key = .ok c) :
    signature = Base64.encode Base64.urlSafe (Hmac.mac key.bytes (header ++ dot :: payload)) := by
  obtain ⟨document, ⟨header', payload', signature', htoken, hheader', hpayload', -, hcode, -⟩, -⟩ :=
    verify_eq_ok_iff.mp hverify
  simp only [List.append_assoc, List.cons_append] at htoken
  obtain ⟨rfl, hrest⟩ := Text.append_cons_inj hheader hheader' htoken
  obtain ⟨rfl, rfl⟩ := Text.append_cons_inj hpayload hpayload' hrest
  exact hcode

/-- **A token is accepted exactly for the claims in the document that it carries,** and only a token that
carries a document can fail because of the document. A token whose signature is not the code of what stands
before it is refused for its shape or its signature, and its payload has no part in that. For what is signed
there is one signature. -/
theorem verify_iff_carries (token : List UInt8) (key : Key) :
    (∀ c, verify token key = .ok c ↔
      ∃ document, Carries token key document ∧ Claims.read document = .ok c) ∧
    (∀ cause, verify token key = .error (.encode cause) ↔
      ∃ document, Carries token key document ∧ Claims.read document = .error cause) ∧
    (∀ signed signature, token = signed ++ dot :: signature → dot ∉ signature →
      Base64.decode Base64.urlSafe signature ≠ .ok (Hmac.mac key.bytes signed) →
      verify token key =
        .error (if dot ∈ signed ∧ (Base64.decode Base64.urlSafe signature).isOk then .mismatch
          else .malformed)) ∧
    ∀ header payload signature other c d, dot ∉ header → dot ∉ payload →
      verify (header ++ dot :: payload ++ dot :: signature) key = .ok c →
      verify (header ++ dot :: payload ++ dot :: other) key = .ok d → other = signature := by
  refine ⟨fun c => verify_eq_ok_iff, fun cause => verify_eq_encode_iff, ?_, ?_⟩
  · rintro signed signature rfl hsignature hcode
    exact verify_of_unsigned hsignature hcode
  · intro header payload signature other c d hheader hpayload hverify hother
    rw [signature_of_verify hheader hpayload hverify, signature_of_verify hheader hpayload hother]

/-- An issued token is accepted, and with one more symbol it is not. One byte is no signature, neither behind
a payload with a dot in it nor where there is no payload. -/
theorem verify_iff_carries_issued :
    let key : Key := ⟨.replicate keyLength 0, rfl⟩
    let c : Claims := ⟨"i", 5, "GET", "/a.b"⟩
    (∃ document, Carries (issue c key) key document ∧ Claims.read document = .ok c) ∧
      (¬ ∃ d, verify (issue c key ++ [65]) key = .ok d) ∧
      verify (Utf8.encode "h.p.q.AA") key = .error .mismatch ∧
      verify (Utf8.encode "p.AA") key = .error .malformed := by
  intro key c
  have hissue : verify (issue c key) key = .ok c := verify_issue (by decide) key
  have hcode : ∀ signed, Base64.decode Base64.urlSafe (Utf8.encode "AA") ≠
      .ok (Hmac.mac key.bytes signed) := by
    intro signed heq
    have hdecode : Base64.decode Base64.urlSafe (Utf8.encode "AA") = .ok [0] := by rfl
    rw [hdecode] at heq
    have hlength := congrArg List.length (Except.ok.inj heq)
    rw [Hmac.length_mac] at hlength
    cases hlength
  refine ⟨((verify_iff_carries _ key).1 c).mp hissue, ?_, ?_, ?_⟩
  · rintro ⟨d, hlonger⟩
    rw [issue, signedPart, List.append_assoc, List.cons_append] at hlonger
    have hsame := (verify_iff_carries [] key).2.2.2 _ _ _ _ c d (dot_notMem_encode _)
      (dot_notMem_encode _) hissue hlonger
    simp [signedPart] at hsame
  · exact (verify_iff_carries (Utf8.encode "h.p.q.AA") key).2.2.1 (Utf8.encode "h.p.q")
      (Utf8.encode "AA") (by decide) (by decide) (hcode _)
  · exact (verify_iff_carries (Utf8.encode "p.AA") key).2.2.1 (Utf8.encode "p")
      (Utf8.encode "AA") (by decide) (by decide) (hcode _)

end SigningProxy.Token
