import SigningProxy.Json.Record
import SigningProxy.Proofs.Text.Utf8

/-!
# Reading back a written count

The digits are gathered from the left, the value growing tenfold with each, and what has been
gathered is always the number without the digits to come. So the induction goes along the number
without its last digit, with anything behind.
-/

namespace SigningProxy.Json

/-- A count below this bound is read as an integer. -/
def countBound : Nat := Nat.pow 2 64

/-- The decimal digits of a count, in bytes. -/
def digits (n : Nat) : List UInt8 := Utf8.encode (toString n)

theorem digits_eq_bytes (n : Nat) : digits n = Utf8.bytes (Nat.toDigits 10 n) := by
  rw [digits, Utf8.encode_eq_bytes, Nat.toString_eq_repr, Nat.toList_repr]

theorem utf8EncodeChar_digitChar :
    ∀ d < 10, String.utf8EncodeChar (Nat.digitChar d) = [UInt8.ofNat (48 + d)] := by
  decide

theorem isDigit_ofNat : ∀ d < 10, isDigit (UInt8.ofNat (48 + d)) = true := by
  decide

theorem toNat_ofNat_digit {d : Nat} (hd : d < 10) : (UInt8.ofNat (48 + d)).toNat = 48 + d := by
  rw [UInt8.toNat_ofNat', Nat.mod_eq_of_lt (by omega)]

theorem gatherDigits_digit {value d : Nat} (hd : d < 10) (hvalue : value * 10 + d < countBound)
    (count : Nat) (rest : List UInt8) :
    gatherDigits value count (UInt8.ofNat (48 + d) :: rest)
      = gatherDigits (value * 10 + d) (count + 1) rest := by
  rw [gatherDigits, toNat_ofNat_digit hd, Nat.add_sub_cancel_left, isDigit_ofNat d hd]
  exact if_pos (by rw [Bool.true_and, decide_eq_true_eq]; exact hvalue)

/-- The first digit and the others: the first one is not zero unless it stands alone, and gathering
the others leads to the number. -/
theorem digits_cases (n : Nat) (hn : n < countBound) :
    ∃ d < 10, ∃ others, digits n = UInt8.ofNat (48 + d) :: others ∧ (d = 0 → n = 0) ∧
      (n = 0 → others = []) ∧
      ∀ count rest, gatherDigits d count (others ++ rest)
        = gatherDigits n (count + others.length) rest := by
  induction n using Nat.strongRecOn with
  | ind n ih =>
      rcases Nat.lt_or_ge n 10 with hsmall | hlarge
      · refine ⟨n, hsmall, [], ?_, fun h => h, fun _ => rfl, fun count rest => rfl⟩
        rw [digits_eq_bytes, Nat.toDigits_of_lt_base hsmall, Utf8.bytes_cons,
          utf8EncodeChar_digitChar n hsmall]
        rfl
      · obtain ⟨d, hd, others, hdigits, hzero, -, hgather⟩ := ih (n / 10) (by omega) (by omega)
        have hlast : n % 10 < 10 := Nat.mod_lt _ (by decide)
        refine ⟨d, hd, others ++ [UInt8.ofNat (48 + n % 10)], ?_, fun h => ?_, fun h => ?_,
          fun count rest => ?_⟩
        · rw [digits_eq_bytes, Nat.toDigits_of_base_le (by decide) hlarge, Utf8.bytes_append,
            ← digits_eq_bytes, hdigits, Utf8.bytes_cons, utf8EncodeChar_digitChar _ hlast]
          rfl
        · have := hzero h
          omega
        · omega
        · have hvalue : n / 10 * 10 + n % 10 = n := by omega
          rw [List.append_assoc, hgather, List.singleton_append,
            gatherDigits_digit hlast (by omega), hvalue, List.length_append,
            List.length_singleton, Nat.add_assoc]

/-- What may follow a number without being read as part of it. -/
def EndsNumber (rest : List UInt8) : Prop :=
  ∀ b ∈ rest.head?, isDigit b = false ∧ b ≠ 46 ∧ b ≠ 101 ∧ b ≠ 69

theorem gatherDigits_of_endsNumber {rest : List UInt8} (hrest : EndsNumber rest)
    (value count : Nat) : gatherDigits value count rest = (value, count, rest) := by
  match rest with
  | [] => rfl
  | b :: rest =>
      rw [gatherDigits, (hrest b rfl).1]
      simp

theorem EndsNumber.startsWithDigit {rest : List UInt8} (hrest : EndsNumber rest) :
    startsWithDigit rest = false := by
  match rest with
  | [] => rfl
  | b :: rest => exact (hrest b rfl).1

/-- **A written count is read back,** unless something follows that belongs to a number. -/
theorem readNumber_digits {n : Nat} (hn : n < countBound) {rest : List UInt8}
    (hrest : EndsNumber rest) :
    readNumber true (digits n ++ rest) = .ok (.unsigned n, rest) := by
  obtain ⟨d, hd, others, hdigits, hzero, hsingle, hgather⟩ := digits_cases n hn
  have hgathered := (hgather 0 rest).trans (gatherDigits_of_endsNumber hrest n _)
  have hlead : ¬ (UInt8.ofNat (48 + d) = 48 ∧ startsWithDigit (others ++ rest) = true) := by
    rintro ⟨hd48, hstarts⟩
    have hd0 : d = 0 := by
      have hnat := congrArg UInt8.toNat hd48
      rw [toNat_ofNat_digit hd] at hnat
      exact Nat.add_left_cancel hnat
    rw [hsingle (hzero hd0), List.nil_append, hrest.startsWithDigit] at hstarts
    cases hstarts
  rw [hdigits, List.cons_append, readNumber, isDigit_ofNat d hd, toNat_ofNat_digit hd,
    Nat.add_sub_cancel_left, hgathered]
  simp only [Bool.not_true, Bool.false_eq_true, if_false, hrest.startsWithDigit]
  rw [if_neg (by simpa using hlead)]
  cases rest with
  | nil => rfl
  | cons b rest =>
      obtain ⟨-, hpoint, hlower, hupper⟩ := hrest b rfl
      split <;> simp_all

end SigningProxy.Json
