import SigningProxy.Http.Field
import SigningProxy.Proofs.Text.Utf8

/-!
# Texts as field values

A text is the value of a field, and a field whose value is a text has no other value than the bytes
of that text.
-/

namespace SigningProxy

theorem isFieldByte_of_isTextByte {b : UInt8} (hb : isTextByte b = true) :
    isFieldByte b = true := by
  simp only [isTextByte, isFieldByte, Bool.or_eq_true, Bool.and_eq_true, beq_iff_eq,
    decide_eq_true_eq] at hb ⊢
  rcases hb with hb | ⟨hlow, hhigh⟩
  · exact Or.inl hb
  · exact Or.inr ⟨hlow, UInt8.ne_of_lt hhigh⟩

namespace FieldValue

@[simp] theorem ofBytes?_bytes (v : FieldValue) : ofBytes? v.bytes = some v := dif_pos v.valid

/-- The value with these text bytes. -/
def ofText (bytes : List UInt8) (h : ∀ b ∈ bytes, isTextByte b = true) : FieldValue :=
  ⟨bytes, List.all_eq_true.mpr fun b hb => isFieldByte_of_isTextByte (h b hb)⟩

end FieldValue

/-! ### Texts that are values -/

/-- Visible ASCII, the blank and the tab, as characters. -/
def isTextChar (c : Char) : Bool := c.toNat == 9 || (32 ≤ c.toNat && c.toNat < 127)

/-- A text that a field value can be read as. -/
def IsFieldText (s : String) : Prop := ∀ c ∈ s.toList, isTextChar c = true

instance (s : String) : Decidable (IsFieldText s) :=
  decidable_of_iff (s.toList.all isTextChar = true) List.all_eq_true

theorem IsFieldText.append {s t : String} (hs : IsFieldText s) (ht : IsFieldText t) :
    IsFieldText (s ++ t) := by
  intro c hc
  rw [String.toList_append, List.mem_append] at hc
  rcases hc with hc | hc
  · exact hs c hc
  · exact ht c hc

theorem IsFieldText.intercalate {sep : String} (hsep : IsFieldText sep) {texts : List String}
    (htexts : ∀ s ∈ texts, IsFieldText s) : IsFieldText (sep.intercalate texts) := by
  induction texts with
  | nil =>
      rw [String.intercalate_nil]
      exact fun c hc => absurd hc List.not_mem_nil
  | cons first texts ih =>
      have hfirst := htexts first List.mem_cons_self
      have hrest := ih fun s hs => htexts s (List.mem_cons_of_mem _ hs)
      cases texts with
      | nil =>
          rw [String.intercalate_singleton]
          exact hfirst
      | cons next texts =>
          rw [String.intercalate_cons_cons]
          exact (hfirst.append hsep).append hrest

theorem lt_of_isTextChar {c : Char} (hc : isTextChar c = true) : c.toNat < 128 := by
  simp only [isTextChar, Bool.or_eq_true, beq_iff_eq, Bool.and_eq_true, decide_eq_true_eq] at hc
  omega

theorem isTextByte_ofNat {n : Nat} (hn : n < 128) :
    isTextByte (UInt8.ofNat n) = (n == 9 || (32 ≤ n && n < 127)) := by
  revert n
  decide

theorem IsFieldText.isTextByte {s : String} (hs : IsFieldText s) :
    ∀ b ∈ Utf8.encode s, isTextByte b = true := by
  intro b hb
  obtain ⟨c, hc, hb⟩ := List.mem_flatMap.mp hb
  have hlt := lt_of_isTextChar (hs c hc)
  rw [Utf8.utf8EncodeChar_of_ascii hlt, List.mem_singleton] at hb
  rw [hb, isTextByte_ofNat hlt]
  exact hs c hc

theorem FieldValue.ofString?_of_isFieldText {s : String} (hs : IsFieldText s) :
    ofString? s = some (ofText (Utf8.encode s) hs.isTextByte) :=
  ofBytes?_bytes (ofText (Utf8.encode s) hs.isTextByte)

theorem toNat_lt_of_isTextByte {b : UInt8} (hb : isTextByte b = true) : b.toNat < 128 := by
  simp only [isTextByte, Bool.or_eq_true, beq_iff_eq, Bool.and_eq_true, decide_eq_true_eq] at hb
  rcases hb with rfl | ⟨-, hb⟩
  · decide
  · have hlt : b.toNat < 127 := hb
    omega

theorem toNat_charOfNat : ∀ n < 128, (Char.ofNat n).toNat = n := by
  decide

theorem FieldValue.encode_of_text? {v : FieldValue} {s : String} (hs : v.text? = some s) :
    IsFieldText s ∧ Utf8.encode s = v.bytes := by
  rw [text?, Option.ite_none_right_eq_some] at hs
  obtain ⟨hall, hs⟩ := hs
  cases hs
  rw [List.all_eq_true] at hall
  constructor
  · intro c hc
    rw [String.toList_ofList] at hc
    obtain ⟨b, hb, rfl⟩ := List.mem_map.mp hc
    have hlt := toNat_lt_of_isTextByte (hall b hb)
    rw [isTextChar, toNat_charOfNat _ hlt, ← isTextByte_ofNat hlt, UInt8.ofNat_toNat]
    exact hall b hb
  · rw [Utf8.encode_ofList]
    generalize v.bytes = bytes at hall
    induction bytes with
    | nil => rfl
    | cons b bytes ih =>
        have hlt := toNat_lt_of_isTextByte (hall b List.mem_cons_self)
        have hchar := toNat_charOfNat _ hlt
        rw [List.map_cons, Utf8.bytes_cons, Utf8.utf8EncodeChar_of_ascii (by omega), hchar,
          UInt8.ofNat_toNat, ih fun b hb => hall b (List.mem_cons_of_mem _ hb)]
        rfl

end SigningProxy
