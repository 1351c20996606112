import SigningProxy.Text.Cut

/-!
# The first place of a word

Cutting at a word takes its first place: what stands before it, the word, and what stands behind it are the
text again, and the word does not begin anywhere earlier. A word whose first character does not occur before
it stands there for the first time.
-/

namespace SigningProxy.Text

variable {α : Type} {word s before after : List α}

/-- The word stands between `before` and `after`, and does not begin anywhere earlier. -/
structure FirstAt (word s before after : List α) : Prop where
  eq : s = before ++ word ++ after
  first : ∀ front back, s = front ++ word ++ back → before.length ≤ front.length

theorem FirstAt.unique {before' after' : List α} (hfirst : FirstAt word s before after)
    (hother : FirstAt word s before' after') : before = before' ∧ after = after' := by
  have hlength : before.length = before'.length :=
    Nat.le_antisymm (hfirst.first _ _ hother.eq) (hother.first _ _ hfirst.eq)
  have heq := hfirst.eq.symm.trans hother.eq
  rw [List.append_assoc, List.append_assoc] at heq
  obtain ⟨hbefore, hrest⟩ := List.append_inj heq hlength
  exact ⟨hbefore, List.append_cancel_left hrest⟩

theorem firstAt_of_prefix (hstarts : word <+: s) : FirstAt word s [] (s.drop word.length) := by
  obtain ⟨rest, rfl⟩ := hstarts
  rw [List.drop_left]
  exact ⟨rfl, fun _ _ _ => Nat.zero_le _⟩

theorem firstAt_cons_iff {c : α} {rest : List α} (hstarts : ¬ word <+: c :: rest) :
    FirstAt word (c :: rest) before after ↔
      ∃ front, before = c :: front ∧ FirstAt word rest front after := by
  constructor
  · intro hfirst
    cases before with
    | nil => exact absurd ⟨after, hfirst.eq.symm⟩ hstarts
    | cons d front =>
        obtain ⟨hhead, hrest⟩ := List.cons.inj hfirst.eq
        refine ⟨front, by rw [hhead], hrest, ?_⟩
        intro other back heq
        have hle := hfirst.first (c :: other) back (by rw [heq]; rfl)
        exact Nat.le_of_succ_le_succ hle
  · rintro ⟨front, rfl, hrest⟩
    refine ⟨by rw [hrest.eq]; rfl, ?_⟩
    intro other back heq
    cases other with
    | nil => exact absurd ⟨back, heq.symm⟩ hstarts
    | cons d other => exact Nat.succ_le_succ (hrest.first _ _ (List.cons.inj heq).2)

/-- Where the word's first character does not occur before it, it stands there for the first time. -/
theorem firstAt_of_notMem {c : α} (hbefore : c ∉ before) :
    FirstAt (c :: word) (before ++ (c :: word) ++ after) before after := by
  refine ⟨rfl, ?_⟩
  intro front back heq
  rw [List.append_assoc, List.append_assoc, List.append_eq_append_iff] at heq
  rcases heq with ⟨between, rfl, -⟩ | ⟨between, rfl, hword⟩
  · exact (List.prefix_append _ _).length_le
  · cases between with
    | nil => simp
    | cons d between =>
        obtain ⟨rfl, -⟩ := List.cons.inj hword
        exact absurd (List.mem_append_right _ List.mem_cons_self) hbefore

/-! ### Cutting -/

variable [DecidableEq α]

theorem cutWord?_go (word seen s : List α) :
    cutWord?.go word seen s =
      (cutWord?.go word [] s).map fun (before, after) => (seen.reverse ++ before, after) := by
  induction s generalizing seen with
  | nil =>
      unfold cutWord?.go
      split
      · simp only [Option.map_some, List.reverse_nil, List.append_nil]
      · rfl
  | cons c rest ih =>
      unfold cutWord?.go
      split
      · simp only [Option.map_some, List.reverse_nil, List.append_nil]
      · rw [ih (c :: seen), ih [c], Option.map_map]
        congr 1
        funext ⟨before, after⟩
        simp only [Function.comp_apply, List.reverse_cons, List.append_assoc]
        rfl

theorem cutWord?_cons (word : List α) (c : α) (rest : List α) :
    cutWord? word (c :: rest) =
      if word <+: c :: rest then some ([], (c :: rest).drop word.length)
      else (cutWord? word rest).map fun (before, after) => (c :: before, after) := by
  rw [cutWord?, cutWord?.go, cutWord?_go word [c] rest, cutWord?]
  simp only [List.isPrefixOf_iff_prefix]
  rfl

/-- **A text is cut where the word stands first.** -/
theorem cutWord?_eq_some_iff :
    cutWord? word s = some (before, after) ↔ FirstAt word s before after := by
  induction s generalizing before with
  | nil =>
      rw [cutWord?, cutWord?.go]
      constructor
      · intro hcut
        split at hcut
        · next hempty =>
          cases hcut
          rw [List.isEmpty_iff.mp hempty]
          exact firstAt_of_prefix List.nil_prefix
        · cases hcut
      · intro hfirst
        obtain ⟨hfront, rfl⟩ := List.append_eq_nil_iff.mp hfirst.eq.symm
        obtain ⟨rfl, rfl⟩ := List.append_eq_nil_iff.mp hfront
        rfl
  | cons c rest ih =>
      rw [cutWord?_cons]
      split
      · next hstarts =>
        have hfirst := firstAt_of_prefix hstarts
        constructor
        · intro hcut
          cases hcut
          exact hfirst
        · intro hother
          obtain ⟨rfl, rfl⟩ := hother.unique hfirst
          rfl
      · next hstarts =>
        rw [firstAt_cons_iff hstarts, Option.map_eq_some_iff]
        constructor
        · rintro ⟨⟨front, back⟩, hcut, hpair⟩
          cases hpair
          exact ⟨front, rfl, ih.mp hcut⟩
        · rintro ⟨front, rfl, hrest⟩
          exact ⟨(front, after), ih.mpr hrest, rfl⟩

end SigningProxy.Text
