import SigningProxy.Text.Utf8

/-!
# Texts and their bytes

The bytes of a text are those of its characters, so they can be cut between characters, and reading
them back gives the text.
-/

namespace SigningProxy.Utf8

/-- The bytes of characters that stand in a row. -/
def bytes (s : List Char) : List UInt8 := s.flatMap String.utf8EncodeChar

theorem encode_eq_bytes (s : String) : encode s = bytes s.toList := rfl

@[simp] theorem bytes_nil : bytes [] = [] := rfl

@[simp] theorem bytes_cons (c : Char) (s : List Char) :
    bytes (c :: s) = String.utf8EncodeChar c ++ bytes s := rfl

@[simp] theorem bytes_append (s t : List Char) : bytes (s ++ t) = bytes s ++ bytes t :=
  List.flatMap_append

@[simp] theorem encode_append (s t : String) : encode (s ++ t) = encode s ++ encode t := by
  rw [encode_eq_bytes, String.toList_append, bytes_append, ← encode_eq_bytes, ← encode_eq_bytes]

@[simp] theorem encode_ofList (s : List Char) : encode (String.ofList s) = bytes s := by
  rw [encode_eq_bytes, String.toList_ofList]

theorem encode_intercalate (sep : String) (texts : List String) :
    encode (sep.intercalate texts) = (encode sep).intercalate (texts.map encode) := by
  induction texts with
  | nil =>
      rw [String.intercalate_nil]
      rfl
  | cons first texts ih =>
      cases texts with
      | nil =>
          rw [String.intercalate_singleton, List.map_singleton, List.intercalate_singleton]
      | cons next texts =>
          rw [String.intercalate_cons_cons, encode_append, encode_append, ih]
          simp only [List.map_cons, List.intercalate_cons_cons]

/-- **Reading the bytes of a text gives the text.** -/
theorem decode?_encode (s : String) : decode? (encode s) = some s := by
  have hbytes : (⟨(encode s).toArray⟩ : ByteArray) = s.toByteArray := by
    rw [← String.utf8Encode_toList, List.utf8Encode]
    apply ByteArray.ext
    rw [List.data_toByteArray]
    rfl
  rw [decode?, hbytes, String.fromUTF8?, dif_pos s.isValidUTF8]
  rfl

theorem utf8EncodeChar_of_ascii {c : Char} (h : c.toNat < 128) :
    String.utf8EncodeChar c = [UInt8.ofNat c.toNat] := by
  have hval : c.val.toNat ≤ 0x7f := by
    have hnat : c.val.toNat = c.toNat := rfl
    omega
  rw [String.utf8EncodeChar]
  exact if_pos hval

/-- A character beyond ASCII has no byte below 128. -/
theorem le_of_mem_utf8EncodeChar {c : Char} (h : 128 ≤ c.toNat) {b : UInt8}
    (hb : b ∈ String.utf8EncodeChar c) : 128 ≤ b.toNat := by
  have hval : ¬ c.val.toNat ≤ 0x7f := by
    have hnat : c.val.toNat = c.toNat := rfl
    omega
  rw [String.utf8EncodeChar] at hb
  simp only [if_neg hval] at hb
  split at hb
  · simp only [List.mem_cons, List.not_mem_nil, or_false] at hb
    rcases hb with rfl | rfl <;> rw [UInt8.toNat_ofNat', Nat.mod_eq_of_lt (by omega)] <;> omega
  · split at hb
    · simp only [List.mem_cons, List.not_mem_nil, or_false] at hb
      rcases hb with rfl | rfl | rfl <;>
        rw [UInt8.toNat_ofNat', Nat.mod_eq_of_lt (by omega)] <;> omega
    · simp only [List.mem_cons, List.not_mem_nil, or_false] at hb
      rcases hb with rfl | rfl | rfl | rfl <;>
        rw [UInt8.toNat_ofNat', Nat.mod_eq_of_lt (by omega)] <;> omega

end SigningProxy.Utf8
