import SigningProxy.Token.Signer
import SigningProxy.Proofs.Base64
import SigningProxy.Proofs.Http.Fields
import SigningProxy.Proofs.Json.Records
import SigningProxy.Proofs.Text.Cut

/-!
# Issued tokens are accepted

The three parts of a token hold no dot, because the symbols of base64 are none, so cutting at dots
gives back the parts. From there on each layer is undone by what is known of it: the code is the one
that is computed again, and the payload is the written claims.
-/

namespace SigningProxy

/-! ### Claims -/

namespace Claims

theorem known_entries {c : Claims} (hcount : c.issuedAt < Json.countBound) :
    ∀ entry ∈ c.entries, Json.Known spec entry := by
  intro entry hentry
  simp only [entries, List.mem_cons, List.not_mem_nil, or_false] at hentry
  rcases hentry with rfl | rfl | rfl | rfl
  · exact ⟨⟨"iss", .text, true⟩, rfl, .text _⟩
  · exact ⟨⟨"iat", .count, true⟩, rfl, .count hcount⟩
  · exact ⟨⟨"method", .text, true⟩, rfl, .text _⟩
  · exact ⟨⟨"path", .text, true⟩, rfl, .text _⟩

/-- **Written claims are read back.** -/
theorem read_write {c : Claims} (hcount : c.issuedAt < Json.countBound) :
    read c.write = .ok c := by
  have hread := Json.readRecord_object (Json.object_writeCompact (known_entries hcount))
    (show (c.entries.map (·.1)).Nodup by simp [entries])
    (show spec.missing? c.entries = none from rfl)
  rw [read, write, Utf8.encode_eq_bytes, hread]
  rfl

end Claims

/-! ### Tokens -/

namespace Token

/-- Tokens are made of these symbols and dots. -/
theorem mem_encode {bytes : List UInt8} {b : UInt8}
    (hb : b ∈ Base64.encode Base64.urlSafe bytes) : b ≠ dot ∧ isTextByte b = true := by
  have hsymbol : ∀ n < 64, Base64.urlSafe.symbol n ≠ dot ∧
      isTextByte (Base64.urlSafe.symbol n) = true := by decide
  rcases Base64.mem_encode hb with ⟨n, hn, rfl⟩ | ⟨hpadded, -⟩
  · exact hsymbol n hn
  · cases hpadded

theorem dot_notMem_encode (bytes : List UInt8) : dot ∉ Base64.encode Base64.urlSafe bytes :=
  fun hdot => (mem_encode hdot).1 rfl

/-- How a token is judged by its parts, when there are three. -/
def judge (signed payload signature : List UInt8) (key : Key) : Except SignError Claims :=
  match Base64.decode Base64.urlSafe signature with
  | .error _ => .error .malformed
  | .ok code =>
    if code ≠ Hmac.mac key.bytes signed then .error .mismatch
    else
      match Base64.decode Base64.urlSafe payload with
      | .error _ => .error .malformed
      | .ok document => (Claims.read document).mapError .encode

theorem verify_append {header : List UInt8} (hheader : dot ∉ header) (payload : List UInt8)
    {signature : List UInt8} (hsignature : dot ∉ signature) (key : Key) :
    verify (header ++ dot :: payload ++ dot :: signature) key =
      judge (header ++ dot :: payload) payload signature key := by
  rw [verify, Text.cutLast?_append _ hsignature]
  dsimp only
  rw [Text.cut?_append hheader]
  rfl

/-- **An issued token is accepted** under its key, and says what it was issued for. -/
theorem verify_issue {c : Claims} (hcount : c.issuedAt < Json.countBound) (key : Key) :
    verify (issue c key) key = .ok c := by
  rw [issue, signedPart, verify_append (dot_notMem_encode _) _ (dot_notMem_encode _), judge]
  simp only [Base64.decode_encode Base64.urlSafe_lawful, ne_eq, not_true_eq_false, if_false,
    Claims.read_write hcount]
  rfl

/-- Tokens under one key that are the same were issued for the same claims. -/
theorem issue_injective {c d : Claims} (hc : c.issuedAt < Json.countBound)
    (hd : d.issuedAt < Json.countBound) {key : Key} (hissue : issue c key = issue d key) : c = d := by
  have hverify := verify_issue hc key
  rw [hissue, verify_issue hd key] at hverify
  exact (Except.ok.inj hverify).symm

theorem isTextByte_of_mem_issue {c : Claims} {key : Key} {b : UInt8} (hb : b ∈ issue c key) :
    isTextByte b = true := by
  have hdot : isTextByte dot = true := by decide
  rw [issue, signedPart, List.append_assoc, List.mem_append, List.cons_append, List.mem_cons,
    List.mem_append, List.mem_cons] at hb
  rcases hb with hb | rfl | hb | rfl | hb
  · exact (mem_encode hb).2
  · exact hdot
  · exact (mem_encode hb).2
  · exact hdot
  · exact (mem_encode hb).2

/-- An issued token as the value of a field. -/
def value (c : Claims) (key : Key) : FieldValue :=
  .ofText (issue c key) fun _ => isTextByte_of_mem_issue

/-- **Signing succeeds,** whatever the request, the time and the key. -/
theorem signer_sign (issuer : String) (head : RequestHead) (now : Int64) (key : Key) :
    (signer issuer).sign head now key = .ok (value (claims issuer head now) key) := by
  have hvalue : FieldValue.ofBytes? (issue (claims issuer head now) key)
      = some (value (claims issuer head now) key) :=
    FieldValue.ofBytes?_bytes (value (claims issuer head now) key)
  simp only [signer, hvalue]

theorem issuedAt_claims_lt (issuer : String) (head : RequestHead) (now : Int64) :
    (claims issuer head now).issuedAt < Json.countBound := by
  have hle := Int64.toInt_lt now
  change now.toInt.toNat < 2 ^ 64
  omega

end Token

end SigningProxy
