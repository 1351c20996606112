import SigningProxy.Json.Record
import SigningProxy.Proofs.Json.Grammar
import SigningProxy.Proofs.Text.Utf8

/-!
# Reading strings

Between quotation marks, each character stands as it is or is escaped. A character that stands as it
is has no byte that the reader stops at; an escaped one is a backslash and a body that the reader
turns into the character's bytes. So reading takes in one character after the other, whatever has
been read before and whatever follows. A written string is one way to spell it.
-/

namespace SigningProxy.Json

/-- Bytes that a string may hold unescaped. -/
def IsPlain (b : UInt8) : Prop := b ≠ 34 ∧ b ≠ 92 ∧ 32 ≤ b

theorem readBytes_plain (fuel : Nat) (seen plain rest : List UInt8)
    (hplain : ∀ b ∈ plain, IsPlain b) :
    readBytes (fuel + plain.length) seen (plain ++ rest)
      = readBytes fuel (plain.reverse ++ seen) rest := by
  induction plain generalizing seen with
  | nil => rfl
  | cons b plain ih =>
      obtain ⟨hquote, hslash, hcontrol⟩ := hplain b List.mem_cons_self
      have hlow : ¬ b < 32 := UInt8.not_lt.mpr hcontrol
      rw [List.length_cons, ← Nat.add_assoc, List.cons_append, readBytes, if_neg hquote,
        if_neg hslash, if_neg hlow, ih _ fun d hd => hplain d (List.mem_cons_of_mem _ hd)]
      simp

theorem isPlain_of_mem {c : Char} (hquote : c ≠ '"') (hslash : c ≠ '\\') (hcontrol : 32 ≤ c.toNat)
    {b : UInt8} (hb : b ∈ String.utf8EncodeChar c) : IsPlain b := by
  have hne : ∀ n : UInt8, b.toNat ≠ n.toNat → b ≠ n := fun n h heq => h (congrArg _ heq)
  have hquoteNat : c.toNat ≠ 34 := fun h => hquote (Char.toNat_inj.mp h)
  have hslashNat : c.toNat ≠ 92 := fun h => hslash (Char.toNat_inj.mp h)
  have hbyte : b.toNat = c.toNat ∨ 128 ≤ b.toNat := by
    rcases Nat.lt_or_ge c.toNat 128 with hascii | hwide
    · rw [Utf8.utf8EncodeChar_of_ascii hascii] at hb
      obtain rfl := List.mem_singleton.mp hb
      exact Or.inl (Nat.mod_eq_of_lt (by omega))
    · exact Or.inr (Utf8.le_of_mem_utf8EncodeChar hwide hb)
  refine ⟨hne 34 ?_, hne 92 ?_, UInt8.le_iff_toNat_le.mpr ?_⟩
  · change b.toNat ≠ 34
    omega
  · change b.toNat ≠ 92
    omega
  · change 32 ≤ b.toNat
    omega

/-! ### Escapes -/

theorem hexValue?_hexDigit {n : Nat} {c : Char} (hdigit : HexDigit n c) :
    ∃ b, String.utf8EncodeChar c = [b] ∧ hexValue? b = some n := by
  have hsmall : ∀ n < 16, n.digitChar.toNat < 128 ∧
      hexValue? (UInt8.ofNat n.digitChar.toNat) = some n := by decide
  have hlarge : ∀ n < 16, n.digitChar.toUpper.toNat < 128 ∧
      hexValue? (UInt8.ofNat n.digitChar.toUpper.toNat) = some n := by decide
  obtain ⟨hn, hc⟩ := hdigit
  have hvalue : c.toNat < 128 ∧ hexValue? (UInt8.ofNat c.toNat) = some n := by
    obtain rfl | rfl : c = n.digitChar ∨ c = n.digitChar.toUpper := by simpa using hc
    · exact hsmall n hn
    · exact hlarge n hn
  exact ⟨_, Utf8.utf8EncodeChar_of_ascii hvalue.1, hvalue.2⟩

theorem readHex_codeUnit {n : Nat} {s : List Char} (hunit : CodeUnit n s) (rest : List UInt8) :
    readHex (Utf8.bytes s ++ rest) = .ok (n, rest) := by
  obtain ⟨hfirst, hsecond, hthird, hlast⟩ := hunit
  obtain ⟨a, ha, hm⟩ := hexValue?_hexDigit hfirst
  obtain ⟨b, hb, hn⟩ := hexValue?_hexDigit hsecond
  obtain ⟨c, hc, hk⟩ := hexValue?_hexDigit hthird
  obtain ⟨d, hd, hl⟩ := hexValue?_hexDigit hlast
  simp [ha, hb, hc, hd, readHex, hm, hn, hk, hl]

/-- No character is half of a pair. -/
theorem not_surrogate (c : Char) : ¬ (0xD800 ≤ c.toNat ∧ c.toNat ≤ 0xDFFF) := by
  have hvalid : c.toNat < 0xD800 ∨ 0xDFFF < c.toNat ∧ c.toNat < 0x110000 := c.valid
  omega

theorem readEscape_code {c : Char} {s : List Char} (hunit : CodeUnit c.toNat s)
    (rest : List UInt8) :
    readEscape (117 :: (Utf8.bytes s ++ rest)) = .ok (String.utf8EncodeChar c, rest) := by
  have hsurrogate := not_surrogate c
  have hlow : (0xDC00 ≤ c.toNat && c.toNat ≤ 0xDFFF) = false := by simp; omega
  have hhigh : (0xD800 ≤ c.toNat && c.toNat ≤ 0xDBFF) = false := by simp; omega
  simp only [readEscape, readHex_codeUnit hunit, bind, Except.bind, hlow, hhigh,
    Bool.false_eq_true, if_false, Char.ofNat_toNat]
  rfl

theorem readEscape_pair {c : Char} {high low : Nat} {s t : List Char} (hhigh : high < 1024)
    (hlow : low < 1024) (hcode : c.toNat = 0x10000 + high * 1024 + low)
    (hs : CodeUnit (0xD800 + high) s) (ht : CodeUnit (0xDC00 + low) t) (rest : List UInt8) :
    readEscape (117 :: (Utf8.bytes s ++ 92 :: 117 :: (Utf8.bytes t ++ rest)))
      = .ok (String.utf8EncodeChar c, rest) := by
  have hfirst : (0xDC00 ≤ 0xD800 + high && 0xD800 + high ≤ 0xDFFF) = false := by simp; omega
  have hpair : (0xD800 ≤ 0xD800 + high && 0xD800 + high ≤ 0xDBFF) = true := by simp; omega
  have hsecond : (0xDC00 + low < 0xDC00 || 0xDFFF < 0xDC00 + low) = false := by simp; omega
  have hwhole : (0xD800 + high - 0xD800) * 1024 + (0xDC00 + low - 0xDC00) + 0x10000
      = c.toNat := by omega
  simp only [readEscape, readHex_codeUnit hs, bind, Except.bind, hfirst, hpair, Bool.false_eq_true,
    if_false, if_true, readLowSurrogate, ne_eq, not_true_eq_false, readHex_codeUnit ht, hsecond,
    hwhole, Char.ofNat_toNat]
  rfl

/-- A character stands as it is and has plain bytes, or it is a backslash and a body that is read as
the character. -/
theorem charSpelling_cases {c : Char} {s : List Char} (hspelling : CharSpelling c s) :
    (s = [c] ∧ ∀ b ∈ String.utf8EncodeChar c, IsPlain b) ∨
      ∃ body, Utf8.bytes s = 92 :: body ∧
        ∀ rest, readEscape (body ++ rest) = .ok (String.utf8EncodeChar c, rest) := by
  cases hspelling with
  | plain hcontrol hquote hslash =>
      exact Or.inl ⟨rfl, fun b => isPlain_of_mem hquote hslash hcontrol⟩
  | letter hletter =>
      simp only [letters, List.mem_cons, Prod.mk.injEq, List.not_mem_nil, or_false] at hletter
      rcases hletter with h | h | h | h | h | h | h | h <;> obtain ⟨rfl, rfl⟩ := h <;>
        exact Or.inr ⟨_, rfl, fun rest => rfl⟩
  | code hunit =>
      exact Or.inr ⟨_, rfl, readEscape_code hunit⟩
  | pair hhigh hlow hcode hs ht =>
      rename_i s t
      have hbody : Utf8.bytes ('\\' :: 'u' :: (s ++ '\\' :: 'u' :: t))
          = 92 :: 117 :: (Utf8.bytes s ++ 92 :: 117 :: Utf8.bytes t) := by
        rw [Utf8.bytes_cons, Utf8.bytes_cons, Utf8.bytes_append]
        rfl
      refine Or.inr ⟨_, hbody, fun rest => ?_⟩
      have hread := readEscape_pair hhigh hlow hcode hs ht rest
      simpa using hread

/-! ### Strings that stand for a text -/

/-- The reader takes in one character, in no more steps than it has bytes. -/
theorem readBytes_charSpelling {c : Char} {s : List Char} (hspelling : CharSpelling c s) (fuel : Nat)
    (seen rest : List UInt8) (hfuel : (Utf8.bytes s).length ≤ fuel) :
    ∃ left, fuel ≤ left + (Utf8.bytes s).length ∧
      readBytes fuel seen (Utf8.bytes s ++ rest)
        = readBytes left ((String.utf8EncodeChar c).reverse ++ seen) rest := by
  rcases charSpelling_cases hspelling with ⟨rfl, hplain⟩ | ⟨body, hbody, hread⟩
  · rw [Utf8.bytes_cons, Utf8.bytes_nil, List.append_nil] at hfuel ⊢
    obtain ⟨left, rfl⟩ := Nat.exists_eq_add_of_le' hfuel
    exact ⟨left, Nat.le_refl _, readBytes_plain left seen _ rest hplain⟩
  · rw [hbody, List.length_cons] at hfuel ⊢
    obtain ⟨left, rfl⟩ := Nat.exists_eq_add_of_le' (Nat.le_of_add_left_le hfuel)
    refine ⟨left, by omega, ?_⟩
    rw [List.cons_append, readBytes, if_neg (by decide), if_pos rfl, hread]
    rfl

/-- Reading goes on to the closing quotation mark and collects the bytes of all characters. -/
theorem readBytes_spelling {text s : List Char} (hspelling : Spelling text s) (fuel : Nat)
    (seen rest : List UInt8) (hfuel : (Utf8.bytes s).length < fuel) :
    readBytes fuel seen (Utf8.bytes s ++ 34 :: rest) = .ok (seen.reverse ++ Utf8.bytes text, rest) := by
  induction hspelling generalizing fuel seen with
  | nil =>
      obtain ⟨fuel, rfl⟩ := Nat.exists_eq_add_of_lt hfuel
      simp [readBytes]
  | cons hchar hrest ih =>
      rename_i c text s t
      rw [Utf8.bytes_append, List.length_append] at hfuel
      obtain ⟨left, hleft, hread⟩ := readBytes_charSpelling hchar fuel seen
        (Utf8.bytes t ++ 34 :: rest) (by omega)
      rw [Utf8.bytes_append, List.append_assoc, hread, ih _ _ (by omega)]
      simp

/-- **A quoted text is read,** however it is spelled and whatever follows it. -/
theorem readString_quoted {text : String} {s : List Char} (hquoted : Quoted text s) :
    ∃ body, Utf8.bytes s = 34 :: body ∧ ∀ rest, readString (body ++ rest) = .ok (text, rest) := by
  obtain ⟨hspelling⟩ := hquoted
  rename_i s
  refine ⟨Utf8.bytes s ++ [34], ?_, fun rest => ?_⟩
  · rw [Utf8.bytes_cons, Utf8.bytes_append]
    rfl
  · rw [List.append_assoc, List.singleton_append]
    have hread := readBytes_spelling hspelling ((Utf8.bytes s ++ 34 :: rest).length + 1) [] rest
      (by rw [List.length_append]; omega)
    rw [List.reverse_nil, List.nil_append, ← Utf8.encode_eq_bytes] at hread
    simp only [readString, hread, bind, Except.bind, Utf8.decode?_encode]
    rfl

/-! ### Strings that are skipped -/

theorem skipBytes_plain (fuel : Nat) (plain rest : List UInt8) (hplain : ∀ b ∈ plain, IsPlain b) :
    skipBytes (fuel + plain.length) (plain ++ rest) = skipBytes fuel rest := by
  induction plain with
  | nil => rfl
  | cons b plain ih =>
      obtain ⟨hquote, hslash, hcontrol⟩ := hplain b List.mem_cons_self
      have hlow : ¬ b < 32 := UInt8.not_lt.mpr hcontrol
      rw [List.length_cons, ← Nat.add_assoc, List.cons_append, skipBytes, if_neg hquote,
        if_neg hslash, if_neg hlow, ih fun d hd => hplain d (List.mem_cons_of_mem _ hd)]

theorem skipEscape_letter {l c : Char} (hletter : (l, c) ∈ letters) :
    ∃ b, String.utf8EncodeChar l = [b] ∧ ∀ rest, skipEscape (b :: rest) = .ok rest := by
  simp only [letters, List.mem_cons, Prod.mk.injEq, List.not_mem_nil, or_false] at hletter
  rcases hletter with h | h | h | h | h | h | h | h <;> obtain ⟨rfl, rfl⟩ := h <;>
    exact ⟨_, rfl, fun rest => rfl⟩

theorem skipBytes_inside {s : List Char} (hinside : Inside s) (fuel : Nat) (rest : List UInt8)
    (hfuel : (Utf8.bytes s).length < fuel) :
    skipBytes fuel (Utf8.bytes s ++ 34 :: rest) = .ok rest := by
  have hslash : String.utf8EncodeChar '\\' = [92] := rfl
  have hu : String.utf8EncodeChar 'u' = [117] := rfl
  induction hinside generalizing fuel with
  | nil =>
      obtain ⟨fuel, rfl⟩ := Nat.exists_eq_add_of_lt hfuel
      simp [skipBytes]
  | plain hcontrol hquote hslash hrest ih =>
      rw [Utf8.bytes_cons, List.length_append] at hfuel
      obtain ⟨left, rfl⟩ := Nat.exists_eq_add_of_le' (Nat.le_of_add_right_le (Nat.le_of_lt hfuel))
      rw [Utf8.bytes_cons, List.append_assoc, skipBytes_plain left _ _ fun b =>
        isPlain_of_mem hquote hslash hcontrol]
      exact ih left (by omega)
  | letter hletter hrest ih =>
      obtain ⟨b, hb, hskip⟩ := skipEscape_letter hletter
      simp only [Utf8.bytes_cons, hslash, hb, List.singleton_append, List.length_cons] at hfuel ⊢
      obtain ⟨left, rfl⟩ : ∃ left, fuel = left + 1 := ⟨fuel - 1, by omega⟩
      rw [List.cons_append, List.cons_append, skipBytes, if_neg (by decide), if_pos rfl, hskip]
      exact ih left (by omega)
  | code hunit hrest ih =>
      simp only [Utf8.bytes_cons, Utf8.bytes_append, hslash, hu, List.singleton_append,
        List.length_cons, List.length_append] at hfuel ⊢
      obtain ⟨left, rfl⟩ : ∃ left, fuel = left + 1 := ⟨fuel - 1, by omega⟩
      rw [List.cons_append, List.cons_append, skipBytes, if_neg (by decide), if_pos rfl, skipEscape,
        List.append_assoc, readHex_codeUnit hunit]
      exact ih left (by omega)

theorem skipString_inside {s : List Char} (hinside : Inside s) (rest : List UInt8) :
    skipString (Utf8.bytes s ++ 34 :: rest) = .ok rest := by
  apply skipBytes_inside hinside
  rw [List.length_append]
  omega

/-! ### Written strings -/

/-- A text that may stand between quotation marks as it is. -/
def Plain (s : List Char) : Prop := ∀ c ∈ s, 32 ≤ c.toNat ∧ c ≠ '"' ∧ c ≠ '\\'

instance (s : List Char) : Decidable (Plain s) :=
  List.decidableBAll (fun c : Char => 32 ≤ c.toNat ∧ c ≠ '"' ∧ c ≠ '\\') s

theorem spelling_plain {s : List Char} (hs : Plain s) : Spelling s s := by
  induction s with
  | nil => exact .nil
  | cons c s ih =>
      obtain ⟨hcontrol, hquote, hslash⟩ := hs c List.mem_cons_self
      exact .cons (.plain hcontrol hquote hslash) (ih fun d hd => hs d (List.mem_cons_of_mem _ hd))

theorem charSpelling_control {c : Char} (hc : c.toNat < 32) :
    CharSpelling c
      ['\\', 'u', '0', '0', Nat.digitChar (c.toNat / 16), Nat.digitChar (c.toNat % 16)] := by
  have hdigit : ∀ n < 16, HexDigit n n.digitChar := fun n hn => ⟨hn, List.mem_cons_self⟩
  have hunit := CodeUnit.digits (hdigit 0 (by omega)) (hdigit 0 (by omega))
    (hdigit (c.toNat / 16) (by omega)) (hdigit (c.toNat % 16) (by omega))
  have hcode : ((0 * 16 + 0) * 16 + c.toNat / 16) * 16 + c.toNat % 16 = c.toNat := by omega
  rw [hcode] at hunit
  exact .code hunit

theorem charSpelling_escapeChar (c : Char) : CharSpelling c (escapeChar c) := by
  unfold escapeChar
  split
  case h_8 hquote hslash _ _ _ _ _ =>
    split
    · next hcontrol => exact charSpelling_control hcontrol
    · next hcontrol => exact .plain (Nat.not_lt.mp hcontrol) hquote hslash
  all_goals exact .letter (by decide)

theorem spelling_flatMap (text : List Char) : Spelling text (text.flatMap escapeChar) := by
  induction text with
  | nil => exact .nil
  | cons c text ih => exact .cons (charSpelling_escapeChar c) ih

/-- **A written string is the text between quotation marks.** -/
theorem quoted_writeString (text : String) : Quoted text (writeString text).toList := by
  have hmarks := Quoted.marks (spelling_flatMap text.toList)
  simpa [writeString] using hmarks

end SigningProxy.Json
