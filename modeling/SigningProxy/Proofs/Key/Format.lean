import SigningProxy.Proofs.Base64.Refused
import SigningProxy.Proofs.Key.Store

/-!
# Which contents are a key

The content of a key's file counts without the blanks around it. What is left is the base64 of a key, or of
too few or too many bytes, or of no bytes at all, and each of the three has an answer of its own. Base64 that
is nearly right is of the third kind: nothing in it is skipped, completed or made up for.
-/

namespace SigningProxy.Key

variable {path : String} {content : List UInt8}

/-- The content is refused as no base64. -/
def Malformed (path : String) (content : List UInt8) : Prop :=
  ∃ cause, Key.decode path content = .error (.decode path cause)

theorem decode_of_encode {bytes : List UInt8}
    (htext : Text.strip isKeyBlank content = Base64.encode Base64.standard bytes) :
    Key.decode path content =
      if h : bytes.length = keyLength then .ok ⟨bytes, h⟩
      else .error (.length path keyLength bytes.length) := by
  rw [Key.decode, htext, Base64.decode_encode Base64.standard_lawful]

theorem malformed_of_no_encode
    (htext : ∀ bytes, Text.strip isKeyBlank content ≠ Base64.encode Base64.standard bytes) :
    Malformed path content := by
  rcases hdecode : Base64.decode Base64.standard (Text.strip isKeyBlank content) with cause | bytes
  · exact ⟨cause, by rw [Key.decode, hdecode]⟩
  · exact absurd ((Base64.decode_eq_ok_iff Base64.standard_lawful).mp hdecode) (htext bytes)

theorem malformed_iff : Malformed path content ↔
    ∀ bytes, Text.strip isKeyBlank content ≠ Base64.encode Base64.standard bytes := by
  constructor
  · rintro ⟨cause, hcause⟩ bytes htext
    rw [decode_of_encode htext] at hcause
    split at hcause <;> cases hcause
  · exact malformed_of_no_encode

theorem decode_eq_ok_iff {key : Key} : Key.decode path content = .ok key ↔
    Text.strip isKeyBlank content = Base64.encode Base64.standard key.bytes := by
  constructor
  · exact Key.decode_eq_ok
  · intro htext
    rw [decode_of_encode htext, dif_pos key.length_eq]

theorem decode_eq_length_iff {place : String} {expected found : Nat} :
    Key.decode path content = .error (.length place expected found) ↔
      place = path ∧ expected = 32 ∧ found ≠ 32 ∧ ∃ bytes, bytes.length = found ∧
        Text.strip isKeyBlank content = Base64.encode Base64.standard bytes := by
  constructor
  · intro hdecode
    by_cases htext : ∃ bytes, Text.strip isKeyBlank content = Base64.encode Base64.standard bytes
    · obtain ⟨bytes, htext⟩ := htext
      rw [decode_of_encode htext] at hdecode
      split at hdecode
      · cases hdecode
      · next hlength =>
        cases hdecode
        exact ⟨rfl, rfl, hlength, bytes, rfl, htext⟩
    · have hmalformed : Malformed path content :=
        malformed_of_no_encode fun bytes h => htext ⟨bytes, h⟩
      obtain ⟨cause, hcause⟩ := hmalformed
      rw [hcause] at hdecode
      cases hdecode
  · rintro ⟨rfl, rfl, hlength, bytes, rfl, htext⟩
    rw [decode_of_encode htext]
    exact dif_neg hlength

/-! ### What no base64 holds -/

/-- The two symbols of the alphabet for addresses that the standard one lacks. -/
theorem ne_of_mem_encode {bytes : List UInt8} {b : UInt8}
    (hb : b ∈ Base64.encode Base64.standard bytes) :
    b ≠ Base64.urlSafe.sixtyTwo ∧ b ≠ Base64.urlSafe.sixtyThree := by
  have hsymbol : ∀ n < 64, Base64.standard.symbol n ≠ Base64.urlSafe.sixtyTwo ∧
      Base64.standard.symbol n ≠ Base64.urlSafe.sixtyThree := by decide
  rcases Base64.mem_encode hb with ⟨n, hn, rfl⟩ | ⟨-, rfl⟩
  · exact hsymbol n hn
  · decide

/-- How a content is judged by the text between the blanks at its two ends, and what this means for texts
that are nearly right. -/
structure Judged (path : String) (content : List UInt8) : Prop where
  around : ∃ front back, content = front ++ Text.strip isKeyBlank content ++ back ∧
    (∀ b ∈ front, isKeyBlank b = true) ∧ ∀ b ∈ back, isKeyBlank b = true
  ends : ∀ b, (Text.strip isKeyBlank content).head? = some b ∨
    (Text.strip isKeyBlank content).getLast? = some b → isKeyBlank b = false
  key : ∀ key : Key, Key.decode path content = .ok key ↔
    Text.strip isKeyBlank content = Base64.encode Base64.standard key.bytes
  length : ∀ place expected found,
    Key.decode path content = .error (.length place expected found) ↔
      place = path ∧ expected = 32 ∧ found ≠ 32 ∧ ∃ bytes, bytes.length = found ∧
        Text.strip isKeyBlank content = Base64.encode Base64.standard bytes
  malformed : Malformed path content ↔
    ∀ bytes, Text.strip isKeyBlank content ≠ Base64.encode Base64.standard bytes
  empty : (∀ b ∈ content, isKeyBlank b = true) → Key.decode path content = .error (.length path 32 0)
  unique : ∀ other key, Key.decode path content = .ok key → Key.decode path other = .ok key →
    Text.strip isKeyBlank other = Text.strip isKeyBlank content
  blank : ∀ b ∈ Text.strip isKeyBlank content, isKeyBlank b = true → Malformed path content
  symbol : ∀ b ∈ Text.strip isKeyBlank content,
    b = Base64.urlSafe.sixtyTwo ∨ b = Base64.urlSafe.sixtyThree → Malformed path content
  padding : ∀ bytes count, count ≠ Base64.padCount bytes.length →
    Text.strip isKeyBlank content =
      Base64.encode Base64.standard.bare bytes ++ List.replicate count Base64.pad →
    Malformed path content
  fourBits : ∀ front i j, i < 64 → j < 64 → j % 16 ≠ 0 →
    Text.strip isKeyBlank content =
      front ++ [Base64.standard.symbol i, Base64.standard.symbol j, Base64.pad, Base64.pad] →
    Malformed path content
  twoBits : ∀ front i j k, i < 64 → j < 64 → k < 64 → k % 4 ≠ 0 →
    Text.strip isKeyBlank content = front ++ [Base64.standard.symbol i, Base64.standard.symbol j,
      Base64.standard.symbol k, Base64.pad] →
    Malformed path content

/-- **The text of a key is canonical.** A content is taken for a key exactly if it is the base64 of this key
among blanks; the base64 of another number of bytes is refused with that number; and everything else is
refused as no base64. -/
theorem judged_by_text (path : String) (content : List UInt8) : Judged path content := by
  refine ⟨Text.exists_eq_append_strip isKeyBlank content, fun _ => Text.eq_false_of_end_strip,
    fun _ => decode_eq_ok_iff, fun _ _ _ => decode_eq_length_iff, malformed_iff, ?_, ?_, ?_, ?_, ?_, ?_,
    ?_⟩
  · intro hblank
    have htext : Text.strip isKeyBlank content = Base64.encode Base64.standard [] :=
      Text.strip_of_forall hblank
    exact decode_of_encode htext
  · intro other key hkey hother
    rw [decode_eq_ok_iff.mp hkey, decode_eq_ok_iff.mp hother]
  · intro b hb hblank
    apply malformed_of_no_encode
    intro bytes htext
    rw [htext] at hb
    rw [isKeyBlank_of_mem_encode hb] at hblank
    cases hblank
  · intro b hb hsymbol
    apply malformed_of_no_encode
    intro bytes htext
    rw [htext] at hb
    obtain ⟨hsixtyTwo, hsixtyThree⟩ := ne_of_mem_encode hb
    exact hsymbol.elim hsixtyTwo hsixtyThree
  · intro bytes count hcount htext
    apply malformed_of_no_encode
    intro other hother
    rw [htext] at hother
    exact hcount (Base64.padCount_of_bare_append Base64.standard_lawful rfl hother).2
  · intro front i j hi hj hrest htext
    apply malformed_of_no_encode
    intro bytes hbytes
    rw [htext] at hbytes
    have hns : ∀ n ∈ [i, j], n < 64 := by simp [hi, hj]
    exact hrest (Base64.restIsZero_of_append Base64.standard_lawful rfl hns (by simp) hbytes)
  · intro front i j k hi hj hk hrest htext
    apply malformed_of_no_encode
    intro bytes hbytes
    rw [htext] at hbytes
    have hns : ∀ n ∈ [i, j, k], n < 64 := by simp [hi, hj, hk]
    exact hrest (Base64.restIsZero_of_append Base64.standard_lawful rfl hns (by simp) hbytes)

end SigningProxy.Key
