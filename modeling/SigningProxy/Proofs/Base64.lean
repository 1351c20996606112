import SigningProxy.Base64

/-!
# Reading back what base64 writes

The reader goes through whole quads as long as something follows them and hands the last quad to a
machine of its own, which counts symbols and padding. So there are two parts here: what the machine
makes of symbols followed by the padding that fills up their quad, and the induction over three bytes
at a time, which ends in it.
-/

namespace SigningProxy.Base64

/-- The symbols of an alphabet stand for their six bits, and the padding stands for none. -/
structure Alphabet.Lawful (a : Alphabet) : Prop where
  value_symbol : ∀ n < 64, a.value? (a.symbol n) = some n
  value_pad : a.value? pad = none

theorem standard_lawful : standard.Lawful := ⟨by decide, by decide⟩

theorem urlSafe_lawful : urlSafe.Lawful := ⟨by decide, by decide⟩

variable {a : Alphabet}

theorem Alphabet.Lawful.symbol_ne_pad (h : a.Lawful) {n : Nat} (hn : n < 64) :
    a.symbol n ≠ pad := by
  intro heq
  have hvalue := h.value_symbol n hn
  rw [heq, h.value_pad] at hvalue
  cases hvalue

theorem Alphabet.Lawful.read_symbol (h : a.Lawful) {n : Nat} (hn : n < 64) (offset : Nat) :
    a.read offset (a.symbol n) = .ok n := by
  simp [Alphabet.read, h.value_symbol n hn]

/-! ### The last quad -/

theorem readQuad_pads (start index pads : Nat) (hindex : 2 ≤ index) (quad : Quad) :
    readQuad a start index quad (List.replicate pads pad)
      = .ok { quad with pads := quad.pads + pads } := by
  induction pads generalizing index quad with
  | zero => rfl
  | succ pads ih =>
      rw [List.replicate_succ, readQuad, if_pos rfl, if_neg (by omega), ih _ (by omega)]
      simp [Nat.add_assoc, Nat.add_comm 1]

/-- The machine takes in symbols and, behind the second one at the earliest, padding. -/
theorem readQuad_symbols (h : a.Lawful) (start : Nat) (ns : List Nat) (hns : ∀ n ∈ ns, n < 64)
    (values : List Nat) (last : UInt8) (pads : Nat)
    (hpads : pads = 0 ∨ 2 ≤ values.length + ns.length) :
    readQuad a start values.length ⟨values, last, 0⟩
        (ns.map a.symbol ++ List.replicate pads pad)
      = .ok ⟨values ++ ns, (ns.map a.symbol).getLastD last, pads⟩ := by
  induction ns generalizing values last with
  | nil =>
      rcases hpads with rfl | hlength
      · simp [readQuad]
      · rw [List.map_nil, List.nil_append, readQuad_pads _ _ _ (by simpa using hlength)]
        simp
  | cons n ns ih =>
      have hn : n < 64 := hns n List.mem_cons_self
      have hrest := ih (fun m hm => hns m (List.mem_cons_of_mem _ hm)) (values ++ [n])
        (a.symbol n) (by simpa [Nat.add_assoc, Nat.add_comm 1] using hpads)
      rw [List.length_append, List.length_singleton] at hrest
      rw [List.map_cons, List.cons_append, readQuad, if_neg (h.symbol_ne_pad hn),
        if_neg (Nat.lt_irrefl 0), h.read_symbol hn]
      change readQuad a start _ _ _ = _
      rw [hrest, List.append_assoc, List.singleton_append, List.getLastD_cons]

/-- A last quad of these symbols, filled up with padding where the alphabet pads. -/
def Alphabet.lastQuad (a : Alphabet) (ns : List Nat) : List UInt8 :=
  ns.map a.symbol ++ List.replicate (if a.padded then 4 - ns.length else 0) pad

theorem Alphabet.length_lastQuad_le (a : Alphabet) (ns : List Nat) (hfull : ns.length ≤ 4) :
    (a.lastQuad ns).length ≤ 4 := by
  rw [lastQuad, List.length_append, List.length_map, List.length_replicate]
  split <;> omega

theorem decodeFrom_of_length_le (start : Nat) (text : List UInt8) (hfull : text.length ≤ 4) :
    decodeFrom a start text = decodeLast a start text := by
  match text with
  | [] | [_] | [_, _] | [_, _, _] | [_, _, _, _] => rfl
  | _ :: _ :: _ :: _ :: _ :: rest =>
      simp only [List.length_cons] at hfull
      omega

/-- What a last quad of two to four symbols spells. -/
theorem decodeFrom_lastQuad (h : a.Lawful) (start : Nat) (ns : List Nat)
    (hns : ∀ n ∈ ns, n < 64) (hlength : 2 ≤ ns.length) (hfull : ns.length ≤ 4) :
    decodeFrom a start (a.lastQuad ns) =
      match ns with
      | [i, j] =>
        if j % 16 = 0 then .ok [(i * 4 + j / 16).toUInt8]
        else .error (.lastSymbol (a.symbol j) (start + 1))
      | [i, j, k] =>
        if k % 4 = 0 then .ok [(i * 4 + j / 16).toUInt8, (j % 16 * 16 + k / 4).toUInt8]
        else .error (.lastSymbol (a.symbol k) (start + 2))
      | [i, j, k, l] =>
        .ok [(i * 4 + j / 16).toUInt8, (j % 16 * 16 + k / 4).toUInt8, (k % 4 * 64 + l).toUInt8]
      | _ => .ok [] := by
  have hquad := readQuad_symbols h start ns hns [] 0 (if a.padded then 4 - ns.length else 0)
    (Or.inr (by simpa using hlength))
  rw [List.length_nil] at hquad
  rw [decodeFrom_of_length_le _ _ (a.length_lastQuad_le ns hfull), decodeLast,
    Alphabet.lastQuad, hquad]
  match ns with
  | [] | [_] => simp at hlength
  | [_, _] | [_, _, _] | [_, _, _, _] =>
      rcases a.padded with _ | _ <;> simp [bind, Except.bind]
  | _ :: _ :: _ :: _ :: _ :: rest =>
      simp only [List.length_cons] at hfull
      omega

/-! ### Three bytes at a time -/

theorem encode_one (x : UInt8) :
    encode a [x] = a.lastQuad [x.toNat / 4, x.toNat % 4 * 16] := by
  rcases hpadded : a.padded with _ | _ <;> simp [encode, Alphabet.lastQuad, hpadded]

theorem encode_two (x y : UInt8) :
    encode a [x, y]
      = a.lastQuad [x.toNat / 4, x.toNat % 4 * 16 + y.toNat / 16, y.toNat % 16 * 4] := by
  rcases hpadded : a.padded with _ | _ <;> simp [encode, Alphabet.lastQuad, hpadded]

theorem encode_three (x y z : UInt8) :
    encode a [x, y, z]
      = a.lastQuad [x.toNat / 4, x.toNat % 4 * 16 + y.toNat / 16,
          y.toNat % 16 * 4 + z.toNat / 64, z.toNat % 64] := by
  simp [encode, Alphabet.lastQuad]

@[simp] theorem encode_eq_nil {bytes : List UInt8} : encode a bytes = [] ↔ bytes = [] := by
  match bytes with
  | [] | [_] | [_, _] | _ :: _ :: _ :: _ => simp [encode]

theorem decodeFrom_encode (h : a.Lawful) (start : Nat) (bytes : List UInt8)
    (hbytes : bytes ≠ []) : decodeFrom a start (encode a bytes) = .ok bytes := by
  match bytes with
  | [] => exact absurd rfl hbytes
  | [x] =>
      have hx := x.toNat_lt
      have hbyte : x.toNat / 4 * 4 + x.toNat % 4 * 16 / 16 = x.toNat := by omega
      have hrest : x.toNat % 4 * 16 % 16 = 0 := by omega
      rw [encode_one, decodeFrom_lastQuad h start [_, _] (by simp; omega) (by simp) (by simp)]
      simp only [hrest, hbyte, if_true]
      simp
  | [x, y] =>
      have hx := x.toNat_lt
      have hy := y.toNat_lt
      have hfirst : x.toNat / 4 * 4 + (x.toNat % 4 * 16 + y.toNat / 16) / 16 = x.toNat := by omega
      have hsecond : (x.toNat % 4 * 16 + y.toNat / 16) % 16 * 16 + y.toNat % 16 * 4 / 4
          = y.toNat := by omega
      have hrest : y.toNat % 16 * 4 % 4 = 0 := by omega
      rw [encode_two,
        decodeFrom_lastQuad h start [_, _, _] (by simp; omega) (by simp) (by simp)]
      simp only [hrest, hfirst, hsecond, if_true]
      simp
  | x :: y :: z :: rest =>
      have hx := x.toNat_lt
      have hy := y.toNat_lt
      have hz := z.toNat_lt
      have hi : x.toNat / 4 < 64 := by omega
      have hj : x.toNat % 4 * 16 + y.toNat / 16 < 64 := by omega
      have hk : y.toNat % 16 * 4 + z.toNat / 64 < 64 := by omega
      have hl : z.toNat % 64 < 64 := by omega
      have hfirst : x.toNat / 4 * 4 + (x.toNat % 4 * 16 + y.toNat / 16) / 16 = x.toNat := by omega
      have hsecond : (x.toNat % 4 * 16 + y.toNat / 16) % 16 * 16
          + (y.toNat % 16 * 4 + z.toNat / 64) / 4 = y.toNat := by omega
      have hthird : (y.toNat % 16 * 4 + z.toNat / 64) % 4 * 64 + z.toNat % 64 = z.toNat := by omega
      -- whether this quad is the last one depends on what is left to be written
      rcases hrest : encode a rest with _ | ⟨next, text⟩
      · obtain rfl := encode_eq_nil.mp hrest
        rw [encode_three,
          decodeFrom_lastQuad h start [_, _, _, _] (by simp; omega) (by simp) (by simp)]
        simp only [hfirst, hsecond, hthird]
        simp
      · have hne : rest ≠ [] := by
          rintro rfl
          cases hrest
        have ih := decodeFrom_encode h (start + 4) rest hne
        rw [encode, hrest, decodeFrom, h.read_symbol hi, h.read_symbol hj, h.read_symbol hk,
          h.read_symbol hl, ← hrest]
        simp only [bind, Except.bind, ih, hfirst, hsecond, hthird]
        simp [pure, Except.pure]

/-- A text with one symbol too many is never written. -/
theorem length_encode_mod (a : Alphabet) (bytes : List UInt8) : (encode a bytes).length % 4 ≠ 1 := by
  match bytes with
  | [] => simp [encode]
  | [_] | [_, _] => rcases hpadded : a.padded with _ | _ <;> simp [encode, hpadded]
  | _ :: _ :: _ :: rest =>
      have ih := length_encode_mod a rest
      simp only [encode, List.length_cons]
      omega

theorem mem_encode {bytes : List UInt8} {b : UInt8} (hb : b ∈ encode a bytes) :
    (∃ n < 64, b = a.symbol n) ∨ a.padded = true ∧ b = pad := by
  have hquad : ∀ ns : List Nat, (∀ n ∈ ns, n < 64) → b ∈ a.lastQuad ns →
      (∃ n < 64, b = a.symbol n) ∨ a.padded = true ∧ b = pad := by
    intro ns hns hmem
    rw [Alphabet.lastQuad, List.mem_append, List.mem_map, List.mem_replicate] at hmem
    rcases hmem with ⟨n, hn, rfl⟩ | ⟨hcount, rfl⟩
    · exact Or.inl ⟨n, hns n hn, rfl⟩
    · refine Or.inr ⟨?_, rfl⟩
      rcases hpadded : a.padded with _ | _
      · simp [hpadded] at hcount
      · rfl
  match bytes with
  | [] => cases hb
  | [x] =>
      have hx := x.toNat_lt
      rw [encode_one] at hb
      exact hquad _ (by simp; omega) hb
  | [x, y] =>
      have hx := x.toNat_lt
      have hy := y.toNat_lt
      rw [encode_two] at hb
      exact hquad _ (by simp; omega) hb
  | x :: y :: z :: rest =>
      have hx := x.toNat_lt
      have hy := y.toNat_lt
      have hz := z.toNat_lt
      have hsplit : encode a (x :: y :: z :: rest) = encode a [x, y, z] ++ encode a rest := rfl
      rw [hsplit, List.mem_append, encode_three] at hb
      rcases hb with hb | hb
      · exact hquad _ (by simp; omega) hb
      · exact mem_encode hb

/-- **Reading inverts writing.** -/
theorem decode_encode (h : a.Lawful) (bytes : List UInt8) :
    decode a (encode a bytes) = .ok bytes := by
  by_cases hbytes : bytes = []
  · subst hbytes
    rfl
  · have hlast := List.getLast?_eq_some_getLast (mt encode_eq_nil.mp hbytes : encode a bytes ≠ [])
    rw [decode, hlast]
    simp [length_encode_mod, decodeFrom_encode h 0 bytes hbytes]

end SigningProxy.Base64
