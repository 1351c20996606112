import SigningProxy.Proofs.Base64.Strict

/-!
# Texts that no bytes have

Where an alphabet pads, the text of some bytes is their symbols and the padding that their number asks for.
So a text with other padding behind the symbols of some bytes is the text of no bytes. The same is true of a
text whose last quad has bits left over that are not zero, whatever stands before it.
-/

namespace SigningProxy.Base64

variable {a : Alphabet}

theorem Alphabet.Lawful.filterMap_value? (h : a.Lawful) {ns : List Nat} (hns : ∀ n ∈ ns, n < 64) :
    (ns.map a.symbol).filterMap a.value? = ns := by
  induction ns with
  | nil => rfl
  | cons n ns ih =>
      have hvalue := h.value_symbol n (hns n List.mem_cons_self)
      rw [List.map_cons, List.filterMap_cons_some hvalue,
        ih fun m hm => hns m (List.mem_cons_of_mem _ hm)]

theorem Alphabet.Lawful.filterMap_value?_pads (h : a.Lawful) (count : Nat) :
    (List.replicate count pad).filterMap a.value? = [] := by
  rw [List.filterMap_eq_nil_iff]
  intro b hb
  rw [List.eq_of_mem_replicate hb]
  exact h.value_pad

/-! ### Padding -/

/-- The same symbols without padding. -/
def Alphabet.bare (a : Alphabet) : Alphabet := { a with padded := false }

theorem Alphabet.Lawful.bare (h : a.Lawful) : a.bare.Lawful := ⟨h.value_symbol, h.value_pad⟩

/-- How much padding the text of this many bytes has. -/
def padCount (length : Nat) : Nat := (3 - length % 3) % 3

theorem encode_eq_bare_append (hpadded : a.padded = true) (bytes : List UInt8) :
    encode a bytes = encode a.bare bytes ++ List.replicate (padCount bytes.length) pad := by
  match bytes with
  | [] => rfl
  | [_] | [_, _] =>
      simp only [encode, hpadded, if_true]
      rfl
  | x :: y :: z :: rest =>
      have ih := encode_eq_bare_append hpadded rest
      have hcount : padCount (x :: y :: z :: rest).length = padCount rest.length := by
        simp only [padCount, List.length_cons]
        omega
      rw [encode, ih, hcount]
      rfl

/-- **With other padding the symbols of some bytes are the text of no bytes.** -/
theorem padCount_of_bare_append (h : a.Lawful) (hpadded : a.padded = true)
    {bytes other : List UInt8} {count : Nat}
    (htext : encode a.bare bytes ++ List.replicate count pad = encode a other) :
    other = bytes ∧ count = padCount bytes.length := by
  rw [encode_eq_bare_append hpadded] at htext
  have hfilter : ∀ (bytes : List UInt8) (count : Nat),
      (encode a.bare bytes ++ List.replicate count pad).filter (· ≠ pad) = encode a.bare bytes := by
    intro bytes count
    rw [List.filter_append, List.filter_replicate_of_neg (by simp), List.append_nil,
      List.filter_eq_self]
    intro b hb
    rcases mem_encode hb with ⟨n, hn, rfl⟩ | ⟨hbare, -⟩
    · exact decide_eq_true (h.bare.symbol_ne_pad hn)
    · cases hbare
  have hsame : encode a.bare bytes = encode a.bare other := by
    rw [← hfilter bytes count, htext, hfilter]
  obtain rfl := encode_injective h.bare hsame
  have hlength := congrArg List.length htext
  simp only [List.length_append, List.length_replicate] at hlength
  exact ⟨rfl, by omega⟩

/-! ### Bits left over -/

/-- The bits that are left over in a last quad of two to four symbols are zero. -/
def RestIsZero : List Nat → Prop
  | [_, j] => j % 16 = 0
  | [_, _, k] => k % 4 = 0
  | [_, _, _, _] => True
  | _ => False

theorem Alphabet.lastQuad_injective (h : a.Lawful) {ns ms : List Nat} (hns : ∀ n ∈ ns, n < 64)
    (hms : ∀ m ∈ ms, m < 64) (heq : a.lastQuad ns = a.lastQuad ms) : ns = ms := by
  have hread : ∀ ns : List Nat, (∀ n ∈ ns, n < 64) → (a.lastQuad ns).filterMap a.value? = ns := by
    intro ns hns
    rw [lastQuad, List.filterMap_append, h.filterMap_value? hns, h.filterMap_value?_pads,
      List.append_nil]
  rw [← hread ns hns, heq, hread ms hms]

theorem Alphabet.length_lastQuad (hpadded : a.padded = true) {ns : List Nat} (hfull : ns.length ≤ 4) :
    (a.lastQuad ns).length = 4 := by
  rw [lastQuad, hpadded, if_pos rfl, List.length_append, List.length_map, List.length_replicate]
  omega

/-- The text of some bytes ends in a last quad, and what is left over there is zero. -/
theorem exists_lastQuad {bytes : List UInt8} (hbytes : bytes ≠ []) :
    ∃ front ns, encode a bytes = front ++ a.lastQuad ns ∧ (∀ n ∈ ns, n < 64) ∧ ns.length ≤ 4 ∧
      RestIsZero ns := by
  match bytes with
  | [] => exact absurd rfl hbytes
  | [x] =>
      have hx := x.toNat_lt
      have hrest : x.toNat % 4 * 16 % 16 = 0 := by omega
      refine ⟨[], [x.toNat / 4, x.toNat % 4 * 16], encode_one x, ?_, by simp, hrest⟩
      simp
      omega
  | [x, y] =>
      have hx := x.toNat_lt
      have hy := y.toNat_lt
      have hrest : y.toNat % 16 * 4 % 4 = 0 := by omega
      refine ⟨[], [x.toNat / 4, x.toNat % 4 * 16 + y.toNat / 16, y.toNat % 16 * 4],
        encode_two x y, ?_, by simp, hrest⟩
      simp
      omega
  | [x, y, z] =>
      have hx := x.toNat_lt
      have hy := y.toNat_lt
      have hz := z.toNat_lt
      refine ⟨[], [x.toNat / 4, x.toNat % 4 * 16 + y.toNat / 16,
        y.toNat % 16 * 4 + z.toNat / 64, z.toNat % 64], encode_three x y z, ?_, by simp, trivial⟩
      simp
      omega
  | x :: y :: z :: w :: rest =>
      obtain ⟨front, ns, htext, hns⟩ := exists_lastQuad (List.cons_ne_nil w rest)
      exact ⟨_ :: _ :: _ :: _ :: front, ns, by rw [encode, htext]; rfl, hns⟩

/-- **With bits left over that are not zero a text is that of no bytes.** -/
theorem restIsZero_of_append (h : a.Lawful) (hpadded : a.padded = true) {front : List UInt8}
    {ns : List Nat} {bytes : List UInt8} (hns : ∀ n ∈ ns, n < 64) (hfull : ns.length ≤ 4)
    (htext : front ++ a.lastQuad ns = encode a bytes) : RestIsZero ns := by
  have hlength := Alphabet.length_lastQuad hpadded hfull
  have hbytes : bytes ≠ [] := by
    rintro rfl
    have hnil := congrArg List.length htext
    rw [List.length_append, hlength] at hnil
    cases hnil
  obtain ⟨front', ms, hencode, hms, hfull', hzero⟩ := exists_lastQuad (a := a) hbytes
  have hquads : a.lastQuad ns = a.lastQuad ms :=
    (List.append_inj' (htext.trans hencode)
      (hlength.trans (Alphabet.length_lastQuad hpadded hfull').symm)).2
  rw [Alphabet.lastQuad_injective h hns hms hquads]
  exact hzero

end SigningProxy.Base64
