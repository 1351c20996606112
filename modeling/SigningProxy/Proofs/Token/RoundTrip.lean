import SigningProxy.Proofs.Base64.Strict
import SigningProxy.Proofs.Token.Verify

/-!
# Signing and verifying

Signing never fails, and what has been signed is verified to be what it was signed for. The claims are in
the token byte by byte, so two tokens that say different things are different before the signature already,
under any keys. Whatever the issuer and the path are made of, a token is made of the symbols of base64 and
two dots.
-/

namespace SigningProxy.Token

/-- Letters, digits, the hyphen and the low line. -/
def isAddressSymbol (b : UInt8) : Bool :=
  (65 ≤ b && b ≤ 90) || (97 ≤ b && b ≤ 122) || (48 ≤ b && b ≤ 57) || b == 45 || b == 95

theorem isAddressSymbol_of_mem_encode {bytes : List UInt8} {b : UInt8}
    (hb : b ∈ Base64.encode Base64.urlSafe bytes) : isAddressSymbol b = true := by
  have hsymbol : ∀ n < 64, isAddressSymbol (Base64.urlSafe.symbol n) = true := by decide
  rcases Base64.mem_encode hb with ⟨n, hn, rfl⟩ | ⟨hpadded, -⟩
  · exact hsymbol n hn
  · cases hpadded

/-- What is signed of a token: all that stands before its last dot. -/
def signedText? (token : List UInt8) : Option (List UInt8) :=
  (Text.cutLast? dot token).map (·.1)

theorem signedText?_issue (c : Claims) (key : Key) : signedText? (issue c key) = some (signedPart c) := by
  rw [signedText?, issue, Text.cutLast?_append _ (dot_notMem_encode _)]
  rfl

theorem isAddressSymbol_of_mem_issue {c : Claims} {key : Key} {b : UInt8} (hb : b ∈ issue c key) :
    b = dot ∨ isAddressSymbol b = true := by
  simp only [issue, signedPart, List.mem_append, List.mem_cons] at hb
  rcases hb with (hb | rfl | hb) | rfl | hb
  · exact Or.inr (isAddressSymbol_of_mem_encode hb)
  · exact Or.inl rfl
  · exact Or.inr (isAddressSymbol_of_mem_encode hb)
  · exact Or.inl rfl
  · exact Or.inr (isAddressSymbol_of_mem_encode hb)

theorem count_dot_issue (c : Claims) (key : Key) : (issue c key).count dot = 2 := by
  have hnone : ∀ bytes, (Base64.encode Base64.urlSafe bytes).count dot = 0 := fun bytes =>
    List.count_eq_zero.mpr (dot_notMem_encode bytes)
  simp [issue, signedPart, hnone]

/-- What is signed tells the claims. -/
theorem signedPart_injective {c d : Claims} (hc : c.issuedAt < Json.countBound)
    (hd : d.issuedAt < Json.countBound) (hsigned : signedPart c = signedPart d) : c = d := by
  rw [signedPart, signedPart, List.append_cancel_left_eq, List.cons.injEq] at hsigned
  have hwrite : c.write = d.write := Base64.encode_injective Base64.urlSafe_lawful hsigned.2
  have hread := Claims.read_write hc
  rw [hwrite, Claims.read_write hd] at hread
  exact (Except.ok.inj hread).symm

/-- A time before the origin counts as the origin. -/
theorem issuedAt_claims (issuer : String) (head : RequestHead) (now : Int64) :
    ((claims issuer head now).issuedAt : Int) = max 0 now.toInt := by
  rw [claims, Int64.toNatClampNeg, Int.toNat_eq_max, Int.max_comm]

/-- **What has been signed is verified** under the same key, for any issuer, time and request, and it says who
issued it, when, and for which method and path. Anything else to say is another text to sign. -/
theorem sign_verifies (issuer : String) (head : RequestHead) (now : Int64) (key : Key) :
    ∃ value, (signer issuer).sign head now key = .ok value ∧
      (∀ b ∈ value.bytes, b = dot ∨ isAddressSymbol b = true) ∧ value.bytes.count dot = 2 ∧
      (∃ c, verify value.bytes key = .ok c ∧ c.issuer = issuer ∧
        (c.issuedAt : Int) = max 0 now.toInt ∧ c.method = head.method.text ∧ c.path = head.uri.path) ∧
      ∀ issuer' head' now' key' value', (signer issuer').sign head' now' key' = .ok value' →
        (issuer', max 0 now'.toInt, head'.method, head'.uri.path) ≠
          (issuer, max 0 now.toInt, head.method, head.uri.path) →
        signedText? value'.bytes ≠ signedText? value.bytes := by
  refine ⟨_, signer_sign issuer head now key, ?_, count_dot_issue _ _, ?_, ?_⟩
  · intro b hb
    exact isAddressSymbol_of_mem_issue hb
  · exact ⟨_, verify_issue (issuedAt_claims_lt issuer head now) key, rfl,
      issuedAt_claims issuer head now, rfl, rfl⟩
  · intro issuer' head' now' key' value' hsign hne hsame
    rw [signer_sign] at hsign
    cases hsign
    -- The same text to sign would say the same.
    have hparts : signedPart (claims issuer' head' now') = signedPart (claims issuer head now) := by
      have hsome := (signedText?_issue _ key').symm.trans (hsame.trans (signedText?_issue _ key))
      exact Option.some.inj hsome
    have hclaims := signedPart_injective (issuedAt_claims_lt issuer' head' now')
      (issuedAt_claims_lt issuer head now) hparts
    apply hne
    have hissuer : issuer' = issuer := congrArg Claims.issuer hclaims
    have htime : max 0 now'.toInt = max 0 now.toInt := by
      rw [← issuedAt_claims issuer' head' now', ← issuedAt_claims issuer head now, hclaims]
    have hmethod : head'.method = head.method := by
      have htext : head'.method.text = head.method.text := congrArg Claims.method hclaims
      cases hother : head'.method
      cases hmethod : head.method
      rw [hother, hmethod] at htext
      cases htext
      rfl
    have hpath : head'.uri.path = head.uri.path := congrArg Claims.path hclaims
    rw [hissuer, htime, hmethod, hpath]

/-- The issuer is full of marks, and the time is before the origin. Another second after the origin is
another text to sign. -/
theorem sign_verifies_marks :
    let issuer := "\"\\\n\x01.é"
    let head : RequestHead := ⟨.get, ⟨none, none, "/a.b", none⟩, .http11, .empty⟩
    let key : Key := ⟨.replicate keyLength 0, rfl⟩
    let other : Key := ⟨.replicate keyLength 1, rfl⟩
    ∃ value later, (signer issuer).sign head (-5) key = .ok value ∧
      (signer issuer).sign head 1 other = .ok later ∧
      verify value.bytes key = .ok ⟨issuer, 0, "GET", "/a.b"⟩ ∧
      signedText? later.bytes ≠ signedText? value.bytes := by
  intro issuer head key other
  obtain ⟨value, hvalue, -, -, ⟨c, hverify, hissuer, htime, hmethod, hpath⟩, hdiffers⟩ :=
    sign_verifies issuer head (-5) key
  refine ⟨value, _, hvalue, signer_sign issuer head 1 other, ?_, ?_⟩
  · have horigin : max 0 (-5 : Int64).toInt = 0 := by decide
    have hzero : c.issuedAt = 0 := by omega
    have hclaims : c = ⟨c.issuer, c.issuedAt, c.method, c.path⟩ := rfl
    rw [hverify, hclaims, hissuer, hzero, hmethod, hpath]
    rfl
  · exact hdiffers issuer head 1 other _ (signer_sign issuer head 1 other) (by decide)

end SigningProxy.Token
