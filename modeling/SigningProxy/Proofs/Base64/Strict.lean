import SigningProxy.Proofs.Base64
import SigningProxy.Proofs.Except

/-!
# Reading only what base64 writes

A run of bytes has one text, and no other is read. Whole quads are no problem, since a symbol tells
its six bits and these tell the symbol. The last quad could spell its bytes in several ways: with other
padding, or with other bits where its symbols hold more than its bytes. Both are refused, so it is
filled up exactly as `Alphabet.lastQuad` does it.
-/

namespace SigningProxy.Base64

variable {a : Alphabet}

theorem Alphabet.symbol_of_value? {b : UInt8} {n : Nat} (hvalue : a.value? b = some n) :
    n < 64 ∧ a.symbol n = b := by
  have hb : ∀ m, m = b.toNat → m.toUInt8 = b := by
    intro m hm
    rw [hm]
    exact UInt8.ofNat_toNat
  simp only [Alphabet.value?] at hvalue
  split at hvalue
  · cases hvalue
    refine ⟨by omega, ?_⟩
    rw [symbol, if_pos (by omega)]
    exact hb _ (by omega)
  · split at hvalue
    · cases hvalue
      refine ⟨by omega, ?_⟩
      rw [symbol, if_neg (by omega), if_pos (by omega)]
      exact hb _ (by omega)
    · split at hvalue
      · cases hvalue
        refine ⟨by omega, ?_⟩
        rw [symbol, if_neg (by omega), if_neg (by omega), if_pos (by omega)]
        exact hb _ (by omega)
      · split at hvalue
        · next hb =>
          cases hvalue
          exact ⟨by omega, hb.symm⟩
        · split at hvalue
          · next hb =>
            cases hvalue
            exact ⟨by omega, hb.symm⟩
          · cases hvalue

theorem Alphabet.symbol_of_read {offset n : Nat} {b : UInt8} (hread : a.read offset b = .ok n) :
    n < 64 ∧ a.symbol n = b := by
  rw [read] at hread
  split at hread
  · next hvalue =>
    cases hread
    exact symbol_of_value? hvalue
  · cases hread

/-! ### The last quad -/

/-- What the machine has taken in: symbols and then padding, and no symbols behind padding. -/
theorem readQuad_eq_ok {start index : Nat} {quad read : Quad} {text : List UInt8}
    (hread : readQuad a start index quad text = .ok read) :
    ∃ ns pads, text = ns.map a.symbol ++ List.replicate pads pad ∧ (∀ n ∈ ns, n < 64) ∧
      read.values = quad.values ++ ns ∧ read.pads = quad.pads + pads ∧
        (0 < quad.pads → ns = []) := by
  induction text generalizing index quad with
  | nil =>
      cases hread
      exact ⟨[], 0, rfl, by simp, by simp, rfl, fun _ => rfl⟩
  | cons b rest ih =>
      rw [readQuad] at hread
      split at hread
      · next hpad =>
        split at hread
        · cases hread
        · obtain ⟨ns, pads, hrest, hns, hvalues, hpads, hnil⟩ := ih hread
          obtain rfl := hnil (Nat.succ_pos _)
          refine ⟨[], pads + 1, ?_, hns, hvalues, ?_, fun _ => rfl⟩
          · rw [hpad, hrest]
            rfl
          · rw [hpads]
            change quad.pads + 1 + pads = _
            omega
      · split at hread
        · cases hread
        · next hpads =>
          rcases hn : a.read (start + index) b with cause | n
          · rw [hn] at hread
            cases hread
          · rw [hn] at hread
            obtain ⟨hlt, hsymbol⟩ := Alphabet.symbol_of_read hn
            obtain ⟨ns, pads, hrest, hns, hvalues, hread, -⟩ := ih hread
            refine ⟨n :: ns, pads, ?_, ?_, ?_, hread, fun h => absurd h hpads⟩
            · rw [hrest, List.map_cons, hsymbol]
              rfl
            · intro m hm
              rcases List.mem_cons.mp hm with rfl | hm
              · exact hlt
              · exact hns m hm
            · rw [hvalues, List.append_assoc]
              rfl

/-- A last quad that is read is filled up exactly. -/
theorem decodeLast_eq_ok {start : Nat} {text bytes : List UInt8} (hne : text ≠ [])
    (hfull : text.length ≤ 4) (hdecode : decodeLast a start text = .ok bytes) :
    ∃ ns, text = a.lastQuad ns ∧ (∀ n ∈ ns, n < 64) ∧ 2 ≤ ns.length ∧ ns.length ≤ 4 := by
  rcases hread : readQuad a start 0 ⟨[], 0, 0⟩ text with cause | read
  · rw [decodeLast, hread] at hdecode
    cases hdecode
  · obtain ⟨ns, pads, htext, hns, hvalues, hpads, -⟩ := readQuad_eq_ok hread
    rw [List.nil_append] at hvalues
    rw [Nat.zero_add] at hpads
    rw [htext, List.length_append, List.length_map, List.length_replicate] at hfull
    rw [decodeLast, hread] at hdecode
    simp only [bind, Except.bind, hvalues, hpads, hne, and_false, not_false_eq_true,
      and_true] at hdecode
    split at hdecode
    · cases hdecode
    · next hlong =>
      refine ⟨ns, ?_, hns, by omega, by omega⟩
      rw [htext, Alphabet.lastQuad]
      congr 2
      cases hpadded : a.padded with
      | true =>
          rw [if_pos rfl]
          split at hdecode
          · cases hdecode
          · next hfilled =>
            simp [hpadded] at hfilled
            omega
      | false =>
          rw [if_neg Bool.false_ne_true]
          split at hdecode
          · cases hdecode
          · split at hdecode
            · cases hdecode
            · next hnone =>
              simpa [hpadded] using hnone

/-- Three bytes are written as the four symbols that they were read from. -/
theorem encode_quad {i j k l : Nat} (hi : i < 64) (hj : j < 64) (hk : k < 64) (hl : l < 64)
    (rest : List UInt8) :
    encode a ((i * 4 + j / 16).toUInt8 :: (j % 16 * 16 + k / 4).toUInt8 ::
        (k % 4 * 64 + l).toUInt8 :: rest) =
      a.symbol i :: a.symbol j :: a.symbol k :: a.symbol l :: encode a rest := by
  have hfirst : (i * 4 + j / 16) / 4 = i := by omega
  have hsecond : (i * 4 + j / 16) % 4 * 16 + (j % 16 * 16 + k / 4) / 16 = j := by omega
  have hthird : (j % 16 * 16 + k / 4) % 16 * 4 + (k % 4 * 64 + l) / 64 = k := by omega
  have hfourth : (k % 4 * 64 + l) % 64 = l := by omega
  rw [encode, UInt8.toNat_ofNat_of_lt' (show i * 4 + j / 16 < 256 by omega),
    UInt8.toNat_ofNat_of_lt' (show j % 16 * 16 + k / 4 < 256 by omega),
    UInt8.toNat_ofNat_of_lt' (show k % 4 * 64 + l < 256 by omega), hfirst, hsecond, hthird, hfourth]

/-- The bytes of a last quad are written as this quad again. -/
theorem lastQuad_eq_encode (h : a.Lawful) {start : Nat} {ns : List Nat} {bytes : List UInt8}
    (hns : ∀ n ∈ ns, n < 64) (hlength : 2 ≤ ns.length) (hfull : ns.length ≤ 4)
    (hdecode : decodeFrom a start (a.lastQuad ns) = .ok bytes) : a.lastQuad ns = encode a bytes := by
  rw [decodeFrom_lastQuad h start ns hns hlength hfull] at hdecode
  match ns with
  | [] | [_] => simp at hlength
  | [i, j] =>
      have hi : i < 64 := hns i (by simp)
      have hj : j < 64 := hns j (by simp)
      dsimp only at hdecode
      split at hdecode
      · next hrest =>
        cases hdecode
        have hfirst : (i * 4 + j / 16) / 4 = i := by omega
        have hsecond : (i * 4 + j / 16) % 4 * 16 = j := by omega
        rw [encode_one, UInt8.toNat_ofNat_of_lt' (show i * 4 + j / 16 < 256 by omega), hfirst, hsecond]
      · cases hdecode
  | [i, j, k] =>
      have hi : i < 64 := hns i (by simp)
      have hj : j < 64 := hns j (by simp)
      have hk : k < 64 := hns k (by simp)
      dsimp only at hdecode
      split at hdecode
      · next hrest =>
        cases hdecode
        have hfirst : (i * 4 + j / 16) / 4 = i := by omega
        have hsecond : (i * 4 + j / 16) % 4 * 16 + (j % 16 * 16 + k / 4) / 16 = j := by omega
        have hthird : (j % 16 * 16 + k / 4) % 16 * 4 = k := by omega
        rw [encode_two, UInt8.toNat_ofNat_of_lt' (show i * 4 + j / 16 < 256 by omega),
          UInt8.toNat_ofNat_of_lt' (show j % 16 * 16 + k / 4 < 256 by omega), hfirst, hsecond, hthird]
      · cases hdecode
  | [i, j, k, l] =>
      have hi : i < 64 := hns i (by simp)
      have hj : j < 64 := hns j (by simp)
      have hk : k < 64 := hns k (by simp)
      have hl : l < 64 := hns l (by simp)
      cases hdecode
      rw [encode_quad hi hj hk hl]
      simp [Alphabet.lastQuad, encode]
  | _ :: _ :: _ :: _ :: _ :: rest =>
      simp only [List.length_cons] at hfull
      omega

/-! ### Whole texts -/

theorem eq_encode_of_decodeFrom (h : a.Lawful) {start : Nat} {text bytes : List UInt8}
    (hne : text ≠ []) (hdecode : decodeFrom a start text = .ok bytes) : text = encode a bytes := by
  fun_induction decodeFrom a start text generalizing bytes with
  | case1 start x y z w next rest ih =>
      simp only [Except.bind_eq_ok] at hdecode
      obtain ⟨i, hi, j, hj, k, hk, l, hl, bytes, hrest, hbytes⟩ := hdecode
      obtain ⟨hilt, rfl⟩ := Alphabet.symbol_of_read hi
      obtain ⟨hjlt, rfl⟩ := Alphabet.symbol_of_read hj
      obtain ⟨hklt, rfl⟩ := Alphabet.symbol_of_read hk
      obtain ⟨hllt, rfl⟩ := Alphabet.symbol_of_read hl
      cases hbytes
      rw [encode_quad hilt hjlt hklt hllt, ← ih (List.cons_ne_nil _ _) hrest]
  | case2 start last hlast =>
      have hfull : last.length ≤ 4 := by
        match last with
        | [] | [_] | [_, _] | [_, _, _] | [_, _, _, _] => simp
        | x :: y :: z :: w :: next :: rest => exact absurd rfl (hlast x y z w next rest)
      obtain ⟨ns, rfl, hns, hlength, hshort⟩ := decodeLast_eq_ok hne hfull hdecode
      rw [← decodeFrom_of_length_le _ _ hfull] at hdecode
      exact lastQuad_eq_encode h hns hlength hshort hdecode

/-- **A text is read exactly if it is what is written for its bytes.** -/
theorem decode_eq_ok_iff (h : a.Lawful) {text bytes : List UInt8} :
    decode a text = .ok bytes ↔ text = encode a bytes := by
  constructor
  · intro hdecode
    rw [decode] at hdecode
    split at hdecode
    · next b hlast =>
      split at hdecode
      · cases hdecode
      · apply eq_encode_of_decodeFrom h _ hdecode
        rintro rfl
        cases hlast
    · next hlast =>
      cases hdecode
      exact List.getLast?_eq_none_iff.mp hlast
  · rintro rfl
    exact decode_encode h bytes

theorem encode_injective (h : a.Lawful) {bytes other : List UInt8}
    (hencode : encode a bytes = encode a other) : bytes = other := by
  have hdecode := decode_encode h bytes
  rw [hencode, decode_encode h other] at hdecode
  exact (Except.ok.inj hdecode).symm

/-! ### Prefixes -/

theorem length_encode (hpadded : a.padded = true) (bytes : List UInt8) :
    (encode a bytes).length = (bytes.length + 2) / 3 * 4 := by
  match bytes with
  | [] => rfl
  | [_] | [_, _] => simp [encode, hpadded]
  | _ :: _ :: _ :: rest =>
      have ih := length_encode hpadded rest
      simp only [encode, List.length_cons, ih]
      omega

/-- Without padding only the symbols count, four for three bytes. -/
theorem length_encode_of_unpadded (hunpadded : a.padded = false) (bytes : List UInt8) :
    (encode a bytes).length = (bytes.length * 4 + 2) / 3 := by
  match bytes with
  | [] => rfl
  | [_] | [_, _] => simp [encode, hunpadded]
  | _ :: _ :: _ :: rest =>
      have ih := length_encode_of_unpadded hunpadded rest
      simp only [encode, List.length_cons, ih]
      omega

/-- Where the last quad is filled up, no part of the text of some bytes spells as many bytes. -/
theorem eq_of_encode_prefix (h : a.Lawful) (hpadded : a.padded = true) {bytes other : List UInt8}
    (hlength : other.length = bytes.length) (hbegins : encode a other <+: encode a bytes) :
    other = bytes := by
  apply encode_injective h
  apply hbegins.eq_of_length
  rw [length_encode hpadded, length_encode hpadded, hlength]

end SigningProxy.Base64
