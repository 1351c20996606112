import SigningProxy.Proofs.Json.Numbers
import SigningProxy.Proofs.Json.Strings

/-!
# Skipping values

Every value of the grammar is skipped, with brackets to any depth. The induction is along the
derivation, and each part says where it leaves the reader: a value leaves it behind the value in the
innermost bracket, what stands between two commas in front of the comma, and all that a bracket
holds behind that bracket in the one around it. Three steps for each byte are enough.
-/

namespace SigningProxy.Json

/-! ### Blanks -/

/-- Bytes that are nothing but blanks. -/
def Blank (s : List UInt8) : Prop := ∀ b ∈ s, isSpace b = true

theorem blank_nil : Blank [] := fun _ hb => absurd hb List.not_mem_nil

theorem blank_bytes {gap : List Char} (hgap : Gap gap) : Blank (Utf8.bytes gap) := by
  intro b hb
  obtain ⟨c, hc, hb⟩ := List.mem_flatMap.mp hb
  obtain rfl | rfl | rfl | rfl : c = ' ' ∨ c = '\t' ∨ c = '\n' ∨ c = '\r' := by
    simpa using hgap c hc
  all_goals
    obtain rfl := List.mem_singleton.mp hb
    rfl

theorem skipSpace_append {gap : List UInt8} (hgap : Blank gap) (rest : List UInt8) :
    skipSpace (gap ++ rest) = skipSpace rest := by
  rw [skipSpace, List.dropWhile_append_of_pos hgap, ← skipSpace]

theorem skipSpace_cons {b : UInt8} (hb : isSpace b = false) (rest : List UInt8) :
    skipSpace (b :: rest) = b :: rest := by
  rw [skipSpace, List.dropWhile_cons_of_neg (by simp [hb])]

theorem skipSpace_blank {gap : List UInt8} (hgap : Blank gap) {b : UInt8} (hb : isSpace b = false)
    (rest : List UInt8) : skipSpace (gap ++ b :: rest) = b :: rest := by
  rw [skipSpace_append hgap, skipSpace_cons hb]

theorem EndsNumber.cons {b : UInt8} (hb : isDigit b = false ∧ b ≠ 46 ∧ b ≠ 101 ∧ b ≠ 69)
    (rest : List UInt8) : EndsNumber (b :: rest) := by
  intro c hc
  cases hc
  exact hb

theorem EndsNumber.append {gap rest : List UInt8} (hgap : Blank gap) (hrest : EndsNumber rest) :
    EndsNumber (gap ++ rest) := by
  cases gap with
  | nil => exact hrest
  | cons c gap =>
      have hspace := hgap c List.mem_cons_self
      simp only [isSpace, Bool.or_eq_true, beq_iff_eq] at hspace
      apply EndsNumber.cons
      rcases hspace with ((rfl | rfl) | rfl) | rfl <;> decide

theorem ne_of_isDigit {b n : UInt8} (hb : isDigit b = true) (hn : isDigit n = false) : b ≠ n := by
  rintro rfl
  rw [hb] at hn
  cases hn

theorem isSpace_of_isDigit {b : UInt8} (hb : isDigit b = true) : isSpace b = false := by
  have hne : ∀ n : UInt8, isDigit n = false → (b == n) = false :=
    fun n hn => beq_eq_false_iff_ne.mpr (ne_of_isDigit hb hn)
  simp [isSpace, hne 32 rfl, hne 10 rfl, hne 9 rfl, hne 13 rfl]

/-! ### Numbers -/

/-- A digit is one byte, which is a digit, and no other is zero. -/
theorem exists_of_isDigit {c : Char} (hdigit : c.isDigit = true) :
    ∃ b, String.utf8EncodeChar c = [b] ∧ isDigit b = true ∧ (b = 48 → c = '0') := by
  have hrange : 48 ≤ c.toNat ∧ c.toNat ≤ 57 := by
    simpa [Char.isDigit, UInt32.le_iff_toNat_le] using hdigit
  obtain ⟨d, hd⟩ := Nat.exists_eq_add_of_le hrange.1
  refine ⟨_, Utf8.utf8EncodeChar_of_ascii (by omega), ?_, fun h48 => ?_⟩
  · rw [hd]
    exact isDigit_ofNat d (by omega)
  · have hcode := congrArg UInt8.toNat h48
    rw [hd, toNat_ofNat_digit (by omega)] at hcode
    apply Char.toNat_inj.mp
    rw [hd, hcode]
    rfl

theorem isDigit_of_mem {s : List Char} (hs : ∀ c ∈ s, c.isDigit = true) :
    ∀ b ∈ Utf8.bytes s, isDigit b = true := by
  intro b hb
  obtain ⟨c, hc, hb⟩ := List.mem_flatMap.mp hb
  obtain ⟨d, hd, hdigit, -⟩ := exists_of_isDigit (hs c hc)
  rw [hd] at hb
  cases List.mem_singleton.mp hb
  exact hdigit

theorem dropWhile_digits {ds rest : List UInt8} (hds : ∀ b ∈ ds, isDigit b = true)
    (hrest : startsWithDigit rest = false) : (ds ++ rest).dropWhile isDigit = rest := by
  rw [List.dropWhile_append_of_pos hds]
  cases rest with
  | nil => rfl
  | cons b rest => exact List.dropWhile_cons_of_neg (Bool.eq_false_iff.mp hrest)

/-- Digits are a first one and others. -/
theorem exists_of_digits {s : List Char} (hs : Digits s) :
    ∃ b ds, Utf8.bytes s = b :: ds ∧ isDigit b = true ∧ ∀ d ∈ ds, isDigit d = true := by
  obtain ⟨hne, hs⟩ := hs
  obtain ⟨c, s, rfl⟩ := List.exists_cons_of_ne_nil hne
  obtain ⟨b, hb, hdigit, -⟩ := exists_of_isDigit (hs c List.mem_cons_self)
  refine ⟨b, Utf8.bytes s, ?_, hdigit, isDigit_of_mem fun d hd => hs d (List.mem_cons_of_mem _ hd)⟩
  rw [Utf8.bytes_cons, hb]
  rfl

theorem skipExponent_digits {sign : List Char} (hsign : sign ∈ [[], ['+'], ['-']]) {s : List Char}
    (hs : Digits s) {rest : List UInt8} (hrest : startsWithDigit rest = false) :
    skipExponent (Utf8.bytes sign ++ (Utf8.bytes s ++ rest)) = .ok rest := by
  obtain ⟨b, ds, hbytes, hb, hds⟩ := exists_of_digits hs
  have hdrop := dropWhile_digits hds hrest
  have hplus : b ≠ 43 := ne_of_isDigit hb rfl
  have hminus : b ≠ 45 := ne_of_isDigit hb rfl
  have hplusSign : Utf8.bytes ['+'] = [43] := rfl
  have hminusSign : Utf8.bytes ['-'] = [45] := rfl
  simp only [List.mem_cons, List.not_mem_nil, or_false] at hsign
  unfold skipExponent
  rcases hsign with rfl | rfl | rfl <;> simp [hbytes, hplus, hminus, hb, hdrop, hplusSign, hminusSign]

theorem skipPower_exponent {s : List Char} (hs : Exponent s) {rest : List UInt8}
    (hrest : EndsNumber rest) : skipPower (Utf8.bytes s ++ rest) = .ok rest := by
  cases hs with
  | none =>
      unfold skipPower
      cases rest with
      | nil => rfl
      | cons b rest =>
          obtain ⟨-, -, hlower, hupper⟩ := hrest b rfl
          simp [hlower, hupper]
  | digits hmark hsign hdigits =>
      have hexponent := skipExponent_digits hsign hdigits hrest.startsWithDigit
      simp only [List.mem_cons, List.not_mem_nil, or_false] at hmark
      rcases hmark with rfl | rfl
      · rw [Utf8.bytes_cons, Utf8.bytes_append, List.append_assoc, List.append_assoc]
        exact hexponent
      · rw [Utf8.bytes_cons, Utf8.bytes_append, List.append_assoc, List.append_assoc]
        exact hexponent

/-- Digits end in front of an exponent, and there is no point in front of it. -/
theorem head_exponent {s : List Char} (hs : Exponent s) {rest : List UInt8}
    (hrest : EndsNumber rest) : ∀ b ∈ (Utf8.bytes s ++ rest).head?, isDigit b = false ∧ b ≠ 46 := by
  intro b hb
  cases hs with
  | none => exact ⟨(hrest b hb).1, (hrest b hb).2.1⟩
  | digits hmark hsign hdigits =>
      simp only [List.mem_cons, List.not_mem_nil, or_false] at hmark
      rcases hmark with rfl | rfl <;> cases hb <;> decide

theorem startsWithDigit_eq_false {s : List UInt8} (hs : ∀ b ∈ s.head?, isDigit b = false) :
    startsWithDigit s = false := by
  cases s with
  | nil => rfl
  | cons b s => exact hs b rfl

/-- What is skipped behind the digits in front of the point. -/
def skipFraction : List UInt8 → Except Stop (List UInt8)
  | 46 :: rest =>
    if startsWithDigit rest then skipPower (rest.dropWhile isDigit)
    else stopOn .invalidNumber rest
  | rest => skipPower rest

theorem skipFraction_fraction {s t : List Char} (hs : Fraction s) (ht : Exponent t)
    {rest : List UInt8} (hrest : EndsNumber rest) :
    skipFraction (Utf8.bytes s ++ (Utf8.bytes t ++ rest)) = .ok rest := by
  have hhead := head_exponent ht hrest
  cases hs with
  | none =>
      rw [Utf8.bytes_nil, List.nil_append, ← skipPower_exponent ht hrest]
      generalize Utf8.bytes t ++ rest = s at hhead
      unfold skipFraction
      cases s with
      | nil => rfl
      | cons b s => simp [(hhead b rfl).2]
  | digits hdigits =>
      obtain ⟨b, ds, hbytes, hb, hds⟩ := exists_of_digits hdigits
      have hall : ∀ d ∈ b :: ds, isDigit d = true := List.forall_mem_cons.mpr ⟨hb, hds⟩
      have hdrop := dropWhile_digits hall (startsWithDigit_eq_false fun d hd => (hhead d hd).1)
      have hbody : skipPower ((b :: ds ++ (Utf8.bytes t ++ rest)).dropWhile isDigit) = .ok rest := by
        rw [hdrop, skipPower_exponent ht hrest]
      rw [Utf8.bytes_cons, hbytes]
      exact (if_pos hb).trans hbody

theorem exists_of_whole {s : List Char} (hs : Whole s) :
    ∃ b ds, Utf8.bytes s = b :: ds ∧ isDigit b = true ∧ (∀ d ∈ ds, isDigit d = true) ∧
      (b = 48 → ds = []) := by
  cases hs with
  | zero => exact ⟨48, [], rfl, rfl, by simp, fun _ => rfl⟩
  | digits hne hdigits =>
      rename_i c s
      obtain ⟨b, hb, hdigit, hzero⟩ := exists_of_isDigit (hdigits.2 c List.mem_cons_self)
      refine ⟨b, Utf8.bytes s, ?_, hdigit, ?_, fun h48 => absurd (hzero h48) hne⟩
      · rw [Utf8.bytes_cons, hb]
        rfl
      · exact isDigit_of_mem fun d hd => hdigits.2 d (List.mem_cons_of_mem _ hd)

theorem skipNumber_cons {b : UInt8} {rest : List UInt8} (hb : isDigit b = true)
    (hlead : b = 48 → startsWithDigit rest = false) :
    skipNumber (b :: rest) = skipFraction (rest.dropWhile isDigit) := by
  have hzero : (b = 48 && startsWithDigit rest) = false := by
    rw [Bool.and_eq_false_iff, decide_eq_false_iff_not]
    exact Classical.or_iff_not_imp_left.mpr fun h => hlead (Classical.not_not.mp h)
  rw [skipNumber, hb, hzero]
  rfl

theorem skipNumber_magnitude {s : List Char} (hs : Magnitude s) {rest : List UInt8}
    (hrest : EndsNumber rest) :
    ∃ b ds, Utf8.bytes s = b :: ds ∧ isDigit b = true ∧ skipNumber (b :: (ds ++ rest)) = .ok rest := by
  obtain ⟨hwhole, hfraction, hexponent⟩ := hs
  rename_i s t u
  obtain ⟨b, ds, hbytes, hb, hds, hlead⟩ := exists_of_whole hwhole
  have hend : startsWithDigit (Utf8.bytes t ++ (Utf8.bytes u ++ rest)) = false := by
    have hhead := head_exponent hexponent hrest
    cases hfraction with
    | none => exact startsWithDigit_eq_false fun d hd => (hhead d hd).1
    | digits hdigits => rfl
  refine ⟨b, ds ++ (Utf8.bytes t ++ Utf8.bytes u), ?_, hb, ?_⟩
  · rw [Utf8.bytes_append, Utf8.bytes_append, hbytes]
    rfl
  · rw [List.append_assoc, List.append_assoc, skipNumber_cons hb, dropWhile_digits hds hend]
    · exact skipFraction_fraction hfraction hexponent hrest
    · intro h48
      rw [hlead h48]
      exact hend

/-! ### Brackets -/

/-- How skipping goes on behind a value. -/
def resume (fuel : Nat) (frames : List Frame) (rest : List UInt8) : Except Stop (List UInt8) :=
  if frames.isEmpty then .ok rest else skip fuel (.inside true) frames rest

section

variable {fuel : Nat} {frames outer : List Frame} {f : Frame} {gap rest : List UInt8}

theorem skip_value_append (hgap : Blank gap) :
    skip (fuel + 1) .value frames (gap ++ rest) = skip (fuel + 1) .value frames rest := by
  simp only [skip, skipSpace_append hgap]

theorem skip_element_append (hgap : Blank gap) :
    skip (fuel + 2) .element (f :: outer) (gap ++ rest)
      = skip (fuel + 2) .element (f :: outer) rest := by
  cases f with
  | list => exact skip_value_append hgap
  | object => simp only [skip, skipName, skipSpace_append hgap]

theorem skip_inside_append (hgap : Blank gap) {accept : Bool} :
    skip (fuel + 1) (.inside accept) (f :: outer) (gap ++ rest)
      = skip (fuel + 1) (.inside accept) (f :: outer) rest := by
  simp only [skip, skipSpace_append hgap]

theorem skip_word {word : List UInt8}
    (hword : word ∈ [110 :: nullRest, 116 :: trueRest, 102 :: falseRest]) :
    skip (fuel + 1) .value frames (word ++ rest) = resume fuel frames rest := by
  simp only [List.mem_cons, List.not_mem_nil, or_false] at hword
  rcases hword with rfl | rfl | rfl <;> rfl

theorem skip_digit {b : UInt8} {s : List UInt8} (hb : isDigit b = true)
    (hskip : skipNumber (b :: s) = .ok rest) :
    skip (fuel + 1) .value frames (b :: s) = resume fuel frames rest := by
  rw [skip, skipSpace_cons (isSpace_of_isDigit hb)]
  split
  case h_1 heq => cases heq
  case h_9 heq =>
    cases heq
    rw [if_pos hb, hskip]
    rfl
  all_goals
    next heq => exact absurd (List.cons.inj heq).1 (ne_of_isDigit hb rfl)

theorem skip_minus {s : List UInt8} (hskip : skipNumber s = .ok rest) :
    skip (fuel + 1) .value frames (45 :: s) = resume fuel frames rest := by
  have hstep : skip (fuel + 1) .value frames (45 :: s) = skipNumber s >>= resume fuel frames := rfl
  rw [hstep, hskip]
  rfl

theorem skip_quoted {s : List Char} (hs : Inside s) :
    skip (fuel + 1) .value frames (34 :: (Utf8.bytes s ++ 34 :: rest)) = resume fuel frames rest := by
  have hstep : ∀ s, skip (fuel + 1) .value frames (34 :: s) = skipString s >>= resume fuel frames :=
    fun s => rfl
  rw [hstep, skipString_inside hs]
  rfl

theorem skip_opening :
    skip (fuel + 1) .value frames (Utf8.bytes [f.marks.1] ++ rest)
      = skip fuel (.inside false) (f :: frames) rest := by
  cases f <;> rfl

theorem skip_closing {accept : Bool} :
    skip (fuel + 1) (.inside accept) (f :: outer) (f.closing :: rest) = resume fuel outer rest := by
  cases f <;> cases accept <;> rfl

theorem skip_comma :
    skip (fuel + 1) (.inside true) (f :: outer) (44 :: rest)
      = skip fuel .element (f :: outer) rest := by
  rfl

theorem skip_first {b : UInt8} (hspace : isSpace b = false) (hclosing : b ≠ f.closing) :
    skip (fuel + 1) (.inside false) (f :: outer) (b :: rest)
      = skip fuel .element (f :: outer) (b :: rest) := by
  rw [skip, skipSpace_cons hspace]
  simp [hclosing]

theorem skipName_member {name between : List Char} (hname : Inside name) (hbetween : Gap between) :
    skipName (34 :: (Utf8.bytes name ++ 34 :: (Utf8.bytes between ++ 58 :: rest))) = .ok rest := by
  rw [skipName, skipSpace_cons rfl]
  simp only [ne_eq, not_true_eq_false, if_false, skipString_inside hname, bind, Except.bind,
    skipSpace_blank (blank_bytes hbetween) (show isSpace 58 = false from rfl)]
  rfl

/-! ### Values -/

/-- The first byte that is no blank closes no bracket. -/
def Begins (s : List UInt8) : Prop :=
  ∃ gap b tail, Blank gap ∧ s = gap ++ b :: tail ∧ isSpace b = false ∧ b ≠ 93 ∧ b ≠ 125

theorem Begins.cons {b : UInt8} (hspace : isSpace b = false) (hlist : b ≠ 93) (hobject : b ≠ 125)
    (s : List UInt8) : Begins (b :: s) :=
  ⟨[], b, s, blank_nil, rfl, hspace, hlist, hobject⟩

theorem Begins.append {s : List UInt8} (hs : Begins s) (t : List UInt8) : Begins (s ++ t) := by
  obtain ⟨gap, b, tail, hgap, rfl, hb⟩ := hs
  exact ⟨gap, b, tail ++ t, hgap, by simp, hb⟩

theorem Begins.blank_append {s : List UInt8} (hgap : Blank gap) (hs : Begins s) :
    Begins (gap ++ s) := by
  obtain ⟨more, b, tail, hmore, rfl, hb⟩ := hs
  refine ⟨gap ++ more, b, tail, ?_, (List.append_assoc _ _ _).symm, hb⟩
  intro c hc
  exact (List.mem_append.mp hc).elim (hgap c) (hmore c)

theorem begins_of_numeral {s : List Char} (hs : Numeral s) : Begins (Utf8.bytes s) := by
  cases hs with
  | positive hmagnitude =>
      have hend : EndsNumber [] := fun b hb => nomatch hb
      obtain ⟨b, ds, hbytes, hb, -⟩ := skipNumber_magnitude hmagnitude hend
      rw [hbytes]
      exact .cons (isSpace_of_isDigit hb) (ne_of_isDigit hb rfl) (ne_of_isDigit hb rfl) ds
  | negative hmagnitude => exact .cons rfl (by decide) (by decide) _

theorem begins_of_derives {part : Part} {s : List Char} (hs : Derives part s) :
    Begins (Utf8.bytes s) := by
  induction hs with
  | null => exact .cons rfl (by decide) (by decide) _
  | true => exact .cons rfl (by decide) (by decide) _
  | false => exact .cons rfl (by decide) (by decide) _
  | number hnumeral => exact begins_of_numeral hnumeral
  | string hinside => exact .cons rfl (by decide) (by decide) _
  | @empty f gap hgap => cases f <;> exact .cons rfl (by decide) (by decide) _
  | @bracket f s hitems ih => cases f <;> exact .cons rfl (by decide) (by decide) _
  | element hbefore hs hafter ih =>
      rw [Utf8.bytes_append, Utf8.bytes_append]
      exact .blank_append (blank_bytes hbefore) (ih.append _)
  | member hbefore hname hbetween hgap hs hafter ih =>
      rw [Utf8.bytes_append]
      exact .blank_append (blank_bytes hbefore) (.cons rfl (by decide) (by decide) _)
  | last hs ih => exact ih
  | more hs ht ihs iht =>
      rw [Utf8.bytes_append]
      exact ihs.append _

/-- What is done about a part, given steps for it: how many may be taken, and where it leads. -/
def Skips : Part → List UInt8 → Prop
  | .value, s =>
    ∀ frames rest fuel, EndsNumber rest → 3 * s.length ≤ fuel →
      ∃ left, fuel ≤ left + 3 * s.length ∧
        skip fuel .value frames (s ++ rest) = resume left frames rest
  | .item f, s =>
    ∀ outer rest fuel, EndsNumber rest → 3 * s.length + 2 ≤ fuel →
      ∃ left, fuel ≤ left + (3 * s.length + 1) ∧
        skip fuel .element (f :: outer) (s ++ rest) = skip left (.inside true) (f :: outer) rest
  | .items f, s =>
    ∀ outer rest fuel, 3 * s.length + 2 ≤ fuel →
      ∃ left, fuel ≤ left + (3 * s.length + 2) ∧
        skip fuel .element (f :: outer) (s ++ f.closing :: rest) = resume left outer rest

theorem skips_word {word : List UInt8}
    (hword : word ∈ [110 :: nullRest, 116 :: trueRest, 102 :: falseRest]) : Skips .value word := by
  intro frames rest fuel hrest hfuel
  have hlength : 1 ≤ word.length := by
    simp only [List.mem_cons, List.not_mem_nil, or_false] at hword
    rcases hword with rfl | rfl | rfl <;> decide
  obtain ⟨left, rfl⟩ : ∃ left, fuel = left + 1 := ⟨fuel - 1, by omega⟩
  exact ⟨left, by omega, skip_word hword⟩

theorem skips_numeral {s : List Char} (hs : Numeral s) : Skips .value (Utf8.bytes s) := by
  intro frames rest fuel hrest hfuel
  cases hs with
  | positive hmagnitude =>
      obtain ⟨b, ds, hbytes, hb, hskip⟩ := skipNumber_magnitude hmagnitude hrest
      rw [hbytes, List.length_cons] at hfuel ⊢
      obtain ⟨left, rfl⟩ : ∃ left, fuel = left + 1 := ⟨fuel - 1, by omega⟩
      exact ⟨left, by omega, skip_digit hb hskip⟩
  | negative hmagnitude =>
      obtain ⟨b, ds, hbytes, -, hskip⟩ := skipNumber_magnitude hmagnitude hrest
      rename_i s
      have hminus : Utf8.bytes ('-' :: s) = 45 :: b :: ds := by
        rw [Utf8.bytes_cons, hbytes]
        rfl
      rw [hminus, List.length_cons] at hfuel ⊢
      obtain ⟨left, rfl⟩ : ∃ left, fuel = left + 1 := ⟨fuel - 1, by omega⟩
      exact ⟨left, by omega, skip_minus hskip⟩

theorem skips_string {s : List Char} (hs : Inside s) :
    Skips .value (Utf8.bytes ('"' :: (s ++ ['"']))) := by
  intro frames rest fuel hrest hfuel
  have hbytes : Utf8.bytes ('"' :: (s ++ ['"'])) = 34 :: (Utf8.bytes s ++ [34]) := by
    rw [Utf8.bytes_cons, Utf8.bytes_append]
    rfl
  rw [hbytes, List.length_cons] at hfuel ⊢
  obtain ⟨left, rfl⟩ : ∃ left, fuel = left + 1 := ⟨fuel - 1, by omega⟩
  refine ⟨left, by omega, ?_⟩
  rw [List.cons_append, List.append_assoc]
  exact skip_quoted hs

theorem bytes_bracket (f : Frame) (s : List Char) :
    Utf8.bytes (f.marks.1 :: (s ++ [f.marks.2]))
      = Utf8.bytes [f.marks.1] ++ (Utf8.bytes s ++ [f.closing]) := by
  have hclosing : Utf8.bytes [f.marks.2] = [f.closing] := by
    cases f <;> rfl
  rw [← hclosing, ← Utf8.bytes_append, ← Utf8.bytes_append]
  rfl

theorem length_bytes_bracket (f : Frame) (s : List Char) :
    (Utf8.bytes (f.marks.1 :: (s ++ [f.marks.2]))).length = (Utf8.bytes s).length + 2 := by
  have hopening : (Utf8.bytes [f.marks.1]).length = 1 := by
    cases f <;> rfl
  rw [bytes_bracket, List.length_append, List.length_append, hopening, List.length_singleton]
  omega

theorem skips_empty {gap : List Char} (hgap : Gap gap) :
    Skips .value (Utf8.bytes (f.marks.1 :: (gap ++ [f.marks.2]))) := by
  intro frames rest fuel hrest hfuel
  rw [length_bytes_bracket] at hfuel ⊢
  obtain ⟨left, rfl⟩ : ∃ left, fuel = left + 2 := ⟨fuel - 2, by omega⟩
  refine ⟨left, by omega, ?_⟩
  rw [bytes_bracket, List.append_assoc, List.append_assoc, skip_opening,
    skip_inside_append (blank_bytes hgap), List.singleton_append, skip_closing]

theorem skip_begun {s : List UInt8} (hs : Begins s) :
    skip (fuel + 3) (.inside false) (f :: outer) (s ++ rest)
      = skip (fuel + 2) .element (f :: outer) (s ++ rest) := by
  obtain ⟨gap, b, tail, hgap, rfl, hspace, hlist, hobject⟩ := hs
  have hclosing : b ≠ f.closing := by
    cases f
    · exact hlist
    · exact hobject
  rw [List.append_assoc, List.cons_append, skip_inside_append hgap, skip_first hspace hclosing,
    skip_element_append hgap]

theorem skips_bracket {s : List Char} (hitems : Derives (.items f) s)
    (hskips : Skips (.items f) (Utf8.bytes s)) :
    Skips .value (Utf8.bytes (f.marks.1 :: (s ++ [f.marks.2]))) := by
  intro frames rest fuel hrest hfuel
  rw [length_bytes_bracket] at hfuel ⊢
  obtain ⟨left, rfl⟩ : ∃ left, fuel = left + 4 := ⟨fuel - 4, by omega⟩
  obtain ⟨behind, hbehind, hskip⟩ := hskips frames rest (left + 2) (by omega)
  refine ⟨behind, by omega, ?_⟩
  rw [bytes_bracket, List.append_assoc, List.append_assoc, skip_opening,
    skip_begun (begins_of_derives hitems)]
  exact hskip

/-- A value and the blanks around it, when a step has led in front of them. -/
theorem skip_surrounded {before s after : List Char} (hbefore : Gap before)
    (hskips : Skips .value (Utf8.bytes s)) (hafter : Gap after) (hrest : EndsNumber rest)
    (hfuel : 3 * (Utf8.bytes s).length + 1 ≤ fuel) :
    ∃ left, fuel ≤ left + 3 * (Utf8.bytes s).length ∧
      skip fuel .value (f :: outer) (Utf8.bytes before ++ (Utf8.bytes s ++ (Utf8.bytes after ++ rest)))
        = skip left (.inside true) (f :: outer) rest := by
  obtain ⟨left, hleft, hskip⟩ := hskips (f :: outer) (Utf8.bytes after ++ rest) fuel
    (hrest.append (blank_bytes hafter)) (by omega)
  obtain ⟨fuel, rfl⟩ : ∃ left, fuel = left + 1 := ⟨fuel - 1, by omega⟩
  obtain ⟨left, rfl⟩ : ∃ more, left = more + 1 := ⟨left - 1, by omega⟩
  refine ⟨left + 1, hleft, ?_⟩
  rw [skip_value_append (blank_bytes hbefore), hskip]
  exact skip_inside_append (blank_bytes hafter)

theorem skips_element {before s after : List Char} (hbefore : Gap before)
    (hskips : Skips .value (Utf8.bytes s)) (hafter : Gap after) :
    Skips (.item .list) (Utf8.bytes (before ++ (s ++ after))) := by
  intro outer rest fuel hrest hfuel
  simp only [Utf8.bytes_append, List.length_append, List.append_assoc] at hfuel ⊢
  obtain ⟨fuel, rfl⟩ : ∃ left, fuel = left + 1 := ⟨fuel - 1, by omega⟩
  obtain ⟨left, hleft, hskip⟩ := skip_surrounded hbefore hskips hafter hrest
    (show 3 * (Utf8.bytes s).length + 1 ≤ fuel by omega)
  exact ⟨left, by omega, hskip⟩

theorem skips_member {before name between gap s after : List Char} (hbefore : Gap before)
    (hname : Inside name) (hbetween : Gap between) (hgap : Gap gap)
    (hskips : Skips .value (Utf8.bytes s)) (hafter : Gap after) :
    Skips (.item .object)
      (Utf8.bytes (before ++ '"' :: (name ++ '"' :: (between ++ ':' :: (gap ++ (s ++ after)))))) := by
  intro outer rest fuel hrest hfuel
  have hquote : String.utf8EncodeChar '"' = [34] := rfl
  have hcolon : String.utf8EncodeChar ':' = [58] := rfl
  simp only [Utf8.bytes_append, Utf8.bytes_cons, hquote, hcolon, List.length_append,
    List.length_cons, List.append_assoc, List.cons_append, List.nil_append] at hfuel ⊢
  obtain ⟨fuel, rfl⟩ : ∃ left, fuel = left + 2 := ⟨fuel - 2, by omega⟩
  obtain ⟨left, hleft, hskip⟩ := skip_surrounded hgap hskips hafter hrest
    (show 3 * (Utf8.bytes s).length + 1 ≤ fuel + 1 by omega)
  refine ⟨left, by omega, ?_⟩
  rw [skip_element_append (blank_bytes hbefore), skip, skipName_member hname hbetween]
  exact hskip

theorem skips_last {s : List Char} (hskips : Skips (.item f) (Utf8.bytes s)) :
    Skips (.items f) (Utf8.bytes s) := by
  intro outer rest fuel hfuel
  have hclosing : EndsNumber (f.closing :: rest) := .cons (by cases f <;> decide) rest
  obtain ⟨left, hleft, hskip⟩ := hskips outer (f.closing :: rest) fuel hclosing hfuel
  obtain ⟨left, rfl⟩ : ∃ more, left = more + 1 := ⟨left - 1, by omega⟩
  refine ⟨left, by omega, ?_⟩
  rw [hskip, skip_closing]

theorem skips_more {s t : List Char} (hs : Skips (.item f) (Utf8.bytes s))
    (ht : Skips (.items f) (Utf8.bytes t)) : Skips (.items f) (Utf8.bytes (s ++ ',' :: t)) := by
  intro outer rest fuel hfuel
  have hbytes : Utf8.bytes (s ++ ',' :: t) = Utf8.bytes s ++ 44 :: Utf8.bytes t := by
    rw [Utf8.bytes_append]
    rfl
  rw [hbytes, List.length_append, List.length_cons] at hfuel ⊢
  have hcomma : EndsNumber (44 :: (Utf8.bytes t ++ f.closing :: rest)) := .cons (by decide) _
  obtain ⟨left, hleft, hskip⟩ := hs outer _ fuel hcomma (by omega)
  obtain ⟨left, rfl⟩ : ∃ more, left = more + 1 := ⟨left - 1, by omega⟩
  obtain ⟨behind, hbehind, hrest⟩ := ht outer rest left (by omega)
  refine ⟨behind, by omega, ?_⟩
  rw [List.append_assoc, List.cons_append, hskip, skip_comma, hrest]

theorem skips_of_derives {part : Part} {s : List Char} (hs : Derives part s) :
    Skips part (Utf8.bytes s) := by
  induction hs with
  | null => exact skips_word (by decide)
  | true => exact skips_word (by decide)
  | false => exact skips_word (by decide)
  | number hnumeral => exact skips_numeral hnumeral
  | string hinside => exact skips_string hinside
  | empty hgap => exact skips_empty hgap
  | bracket hitems ih => exact skips_bracket hitems ih
  | element hbefore hs hafter ih => exact skips_element hbefore ih hafter
  | member hbefore hname hbetween hgap hs hafter ih =>
      exact skips_member hbefore hname hbetween hgap ih hafter
  | last hs ih => exact skips_last ih
  | more hs ht ihs iht => exact skips_more ihs iht

/-- **Every value is skipped,** with the blanks in front of it. -/
theorem skipValue_derives {s : List Char} (hs : Derives .value s) (hgap : Blank gap)
    (hrest : EndsNumber rest) : skipValue (gap ++ (Utf8.bytes s ++ rest)) = .ok rest := by
  rw [skipValue, skip_value_append hgap]
  obtain ⟨left, -, hskip⟩ := skips_of_derives hs [] rest
    (3 * (gap ++ (Utf8.bytes s ++ rest)).length + 3) hrest (by simp only [List.length_append]; omega)
  exact hskip

end

end SigningProxy.Json
