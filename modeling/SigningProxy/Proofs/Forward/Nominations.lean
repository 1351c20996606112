import Mathlib.Data.List.Basic
import SigningProxy.Proofs.Forward.Hops
import SigningProxy.Proofs.Text.Cut

/-!
# What the `connection` fields take away

A `connection` field lists names between commas, with blanks and tabs around them, and so says which
fields do not pass the hop. What it lists is a matter of its bytes, and `Headers.Nominates` is defined on
them. But only a value that is a text is ever read: one byte beyond ASCII in a value saves all the fields
that it lists, although an element that is no name is otherwise passed over by itself.

Apart from that, stripping takes away what it should and nothing else. The fields that are left are some of
those that were there, in their order, and there is nothing to be stripped among them.
-/

namespace SigningProxy

/-! ### Lists in values -/

namespace FieldValue

/-- The elements of a list with commas, without the blanks and tabs around them. -/
def elements (v : FieldValue) : List (List UInt8) :=
  (Text.pieces 44 v.bytes).map (Text.strip fun b => b == 32 || b == 9)

/-- One of the elements is a name, in any case, and it is this one. -/
def Lists (v : FieldValue) (name : FieldName) : Prop :=
  ∃ element ∈ v.elements, FieldName.ofBytes? element = some name

/-- Visible ASCII, blanks and tabs throughout. -/
def IsText (v : FieldValue) : Prop := ∀ b ∈ v.bytes, isTextByte b = true

variable {v : FieldValue}

theorem text?_of_isText (htext : v.IsText) :
    v.text? = some (String.ofList (v.bytes.map fun b => Char.ofNat b.toNat)) :=
  if_pos (List.all_eq_true.mpr htext)

theorem text?_of_not_isText (htext : ¬ v.IsText) : v.text? = none :=
  if_neg (mt List.all_eq_true.mp htext)

theorem eq_of_charOfNat_eq {b c : UInt8} (hb : isTextByte b = true) (hc : isTextByte c = true)
    (heq : Char.ofNat b.toNat = Char.ofNat c.toNat) : b = c := by
  have hnat := congrArg Char.toNat heq
  rw [toNat_charOfNat _ (toNat_lt_of_isTextByte hb), toNat_charOfNat _ (toNat_lt_of_isTextByte hc)]
    at hnat
  exact UInt8.toNat_inj.mp hnat

theorem isBlank_of_isTextByte {b : UInt8} (hb : isTextByte b = true) :
    Text.isBlank (Char.ofNat b.toNat) = (b == 32 || b == 9) := by
  have hall : ∀ n < 128, isTextByte (UInt8.ofNat n) = true →
      Text.isBlank (Char.ofNat n) = (UInt8.ofNat n == 32 || UInt8.ofNat n == 9) := by decide
  have hbyte := hall b.toNat (toNat_lt_of_isTextByte hb)
  rw [UInt8.ofNat_toNat] at hbyte
  exact hbyte hb

/-- What is read from a text are the names among its elements. -/
theorem listedNames_of_isText (htext : v.IsText) :
    v.listedNames = v.elements.filterMap FieldName.ofBytes? := by
  -- The list is read character by character: a text has the same commas and blanks among its characters
  -- as among its bytes.
  have hcomma : ∀ b ∈ v.bytes, Char.ofNat b.toNat = Char.ofNat (44 : UInt8).toNat → b = 44 :=
    fun b hb => eq_of_charOfNat_eq (htext b hb) (by decide)
  have hpieces : Text.pieces ',' (v.bytes.map fun b => Char.ofNat b.toNat) =
      (Text.pieces 44 v.bytes).map (List.map fun b => Char.ofNat b.toNat) := Text.pieces_map hcomma
  rw [listedNames, text?_of_isText htext, elements]
  dsimp only
  rw [String.toList_ofList, hpieces, List.filterMap_map, List.filterMap_map]
  apply List.filterMap_congr
  intro piece hpiece
  have hblanks : Text.strip (Text.isBlank ∘ fun b => Char.ofNat b.toNat) piece =
      Text.strip (fun b => b == 32 || b == 9) piece :=
    Text.strip_congr fun b hb => isBlank_of_isTextByte (htext b (Text.mem_of_mem_pieces hpiece hb))
  rw [Function.comp_apply, Function.comp_apply, Text.trim, Text.strip_map, hblanks]
  rfl

/-- A value that is no text lists nothing that is read. -/
theorem mem_listedNames {name : FieldName} : name ∈ v.listedNames ↔ v.IsText ∧ v.Lists name := by
  by_cases htext : v.IsText
  · rw [listedNames_of_isText htext, List.mem_filterMap]
    exact (and_iff_right htext).symm
  · rw [listedNames, text?_of_not_isText htext]
    exact iff_of_false List.not_mem_nil fun hlists => htext hlists.1

end FieldValue

/-! ### What is left -/

namespace Headers

/-- A `connection` field lists this name, whatever else it holds. -/
def Nominates (h : Headers) (name : FieldName) : Prop := ∃ v ∈ h.values .connection, v.Lists name

/-- A `connection` field that is a text lists this name. -/
def NominatesInText (h : Headers) (name : FieldName) : Prop :=
  ∃ v ∈ h.values .connection, v.IsText ∧ v.Lists name

theorem NominatesInText.nominates {h : Headers} {name : FieldName} (hname : h.NominatesInText name) :
    h.Nominates name := by
  obtain ⟨v, hv, -, hlists⟩ := hname
  exact ⟨v, hv, hlists⟩

theorem mem_nominated {h : Headers} {name : FieldName} :
    name ∈ h.nominated ↔ h.NominatesInText name := by
  simp only [nominated, List.mem_flatMap, FieldValue.mem_listedNames, NominatesInText]

theorem mem_hopNames {h : Headers} {name : FieldName} :
    name ∈ h.hopNames ↔ h.NominatesInText name ∨ name ∈ FieldName.ofHop := by
  rw [hopNames, List.mem_append, mem_nominated]

theorem connection_mem_ofHop : FieldName.connection ∈ FieldName.ofHop := List.mem_cons_self

theorem fields_eraseAll (h : Headers) (names : List FieldName) :
    (h.eraseAll names).fields = h.fields.filter fun field => field.1 ∉ names := by
  induction names generalizing h with
  | nil => simp [eraseAll]
  | cons first names ih =>
      change ((h.erase first).eraseAll names).fields = _
      rw [ih, erase, List.filter_filter]
      congr 1
      funext field
      simp [Bool.and_comm]

theorem fields_stripHops (h : Headers) :
    h.stripHops.fields = h.fields.filter fun field => field.1 ∉ h.hopNames :=
  fields_eraseAll h h.hopNames

/-- Nothing that is left is nominated, since no `connection` field is left. -/
theorem hopNames_stripHops (h : Headers) : h.stripHops.hopNames = FieldName.ofHop := by
  have hnone : h.stripHops.values .connection = [] := by
    rw [values_stripHops, if_pos (mem_hopNames.mpr (.inr connection_mem_ofHop))]
  rw [hopNames, nominated, hnone]
  rfl

theorem stripHops_stripHops (h : Headers) : h.stripHops.stripHops = h.stripHops := by
  have hkept : ∀ field ∈ h.stripHops.fields, decide (field.1 ∉ FieldName.ofHop) = true := by
    intro field hfield
    rw [fields_stripHops, List.mem_filter, decide_eq_true_eq] at hfield
    rw [decide_eq_true_eq]
    exact fun hhop => hfield.2 (mem_hopNames.mpr (.inr hhop))
  have hfields : h.stripHops.stripHops.fields = h.stripHops.fields := by
    rw [fields_stripHops h.stripHops, hopNames_stripHops]
    exact List.filter_eq_self.mpr hkept
  exact congrArg Headers.mk hfields

theorem nominatesInText_of_perm {h other : Headers} {name : FieldName}
    (hperm : (other.values .connection).Perm (h.values .connection)) :
    other.NominatesInText name ↔ h.NominatesInText name := by
  simp only [NominatesInText, hperm.mem_iff]

/-- **What is stripped.** Of the names that are there, these go: the nine, and those that a `connection`
field lists which is a text. -/
theorem values_stripHops_eq_nil_iff (h : Headers) (name : FieldName) :
    h.stripHops.values name = [] ↔
      h.NominatesInText name ∨ name ∈ FieldName.ofHop ∨ h.values name = [] := by
  rw [values_stripHops, ← or_assoc, ← mem_hopNames]
  split
  · next hname => exact iff_of_true rfl (.inl hname)
  · next hname => rw [or_iff_right hname]

/-- A byte beyond ASCII behind the comma keeps the field before it from being stripped. -/
theorem not_stripped_beside_stray_byte :
    let secret : FieldName := ⟨"x-private", by decide⟩
    let h : Headers :=
      ⟨[(.connection, ⟨Utf8.encode "x-private, " ++ [255], by decide⟩),
        (secret, ⟨Utf8.encode "1", by decide⟩)]⟩
    h.Nominates secret ∧ (h.stripHops.values secret).map (·.bytes) = [Utf8.encode "1"] ∧
      ¬ ∀ name, h.Nominates name → h.stripHops.values name = [] := by
  intro secret h
  have hlists : h.Nominates secret := by
    refine ⟨⟨Utf8.encode "x-private, " ++ [255], by decide⟩, ?_, Utf8.encode "x-private", ?_, ?_⟩
    · decide
    · decide
    · decide
  have hkept : (h.stripHops.values secret).map (·.bytes) = [Utf8.encode "1"] := by decide
  refine ⟨hlists, hkept, ?_⟩
  intro hall
  rw [hall secret hlists] at hkept
  cases hkept

/-- **What is not stripped.** The nine names are gone. A name that is none of them and that no
`connection` field lists keeps its values in their order; nothing is added. Stripping once more changes
nothing, and in which order the `connection` fields stand makes no difference. -/
theorem stripHops_exact (h : Headers) :
    (∀ name ∈ FieldName.ofHop, h.stripHops.values name = []) ∧
    (∀ name, name ∉ FieldName.ofHop → ¬ h.Nominates name →
      h.stripHops.values name = h.values name) ∧
    h.stripHops.fields.Sublist h.fields ∧
    h.stripHops.stripHops = h.stripHops ∧
    ∀ other : Headers, (other.values .connection).Perm (h.values .connection) →
      (∀ name, name ≠ .connection → other.values name = h.values name) →
      ∀ name, other.stripHops.values name = h.stripHops.values name := by
  refine ⟨?_, ?_, ?_, stripHops_stripHops h, ?_⟩
  · intro name hname
    rw [values_stripHops, if_pos (mem_hopNames.mpr (.inr hname))]
  · intro name hhop hlists
    rw [values_stripHops, if_neg]
    intro hname
    rcases mem_hopNames.mp hname with htext | hname
    · exact hlists htext.nominates
    · exact hhop hname
  · rw [fields_stripHops]
    exact List.filter_sublist
  · intro other hperm hothers name
    have hnames : name ∈ other.hopNames ↔ name ∈ h.hopNames := by
      rw [mem_hopNames, mem_hopNames, nominatesInText_of_perm hperm]
    rw [values_stripHops, values_stripHops]
    by_cases hname : name ∈ h.hopNames
    · rw [if_pos hname, if_pos (hnames.mpr hname)]
    · rw [if_neg hname, if_neg (mt hnames.mp hname)]
      apply hothers
      rintro rfl
      exact hname (mem_hopNames.mpr (.inr connection_mem_ofHop))

end Headers

end SigningProxy
