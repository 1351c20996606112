import SigningProxy.Text.Cut

/-!
# Cutting where pieces were joined

A join is cut at its separator again as long as the piece on the side from which the cut is looked
for does not hold the separator itself. Read the other way round, a cut tells how the text was joined. In
the same way stripping gives back what has been surrounded. Both look at the characters one by one, so it
makes no difference whether a text is respelled before it is cut or afterwards.
-/

namespace SigningProxy.Text

variable {α : Type} [DecidableEq α]

theorem ne_of_notMem {sep : α} {s : List α} (hsep : sep ∉ s) : ∀ c ∈ s, decide (c ≠ sep) = true := by
  intro c hc
  rw [decide_eq_true_eq]
  rintro rfl
  exact hsep hc

theorem cut?_append {sep : α} {before : List α} (hbefore : sep ∉ before) (after : List α) :
    cut? sep (before ++ sep :: after) = some (before, after) := by
  have hne := ne_of_notMem hbefore
  rw [cut?, List.dropWhile_append_of_pos hne, List.takeWhile_append_of_pos hne]
  simp

theorem cutLast?_append {sep : α} (before : List α) {after : List α} (hafter : sep ∉ after) :
    cutLast? sep (before ++ sep :: after) = some (before, after) := by
  have hreverse : (before ++ sep :: after).reverse = after.reverse ++ sep :: before.reverse := by
    simp
  rw [cutLast?, hreverse, cut?_append (by simpa using hafter)]
  simp

/-! ### What a cut tells -/

theorem cut?_eq_none_iff {sep : α} {s : List α} : cut? sep s = none ↔ sep ∉ s := by
  constructor
  · intro hnone hmem
    obtain ⟨before, after, rfl, hbefore⟩ := List.eq_append_cons_of_mem hmem
    rw [cut?_append hbefore] at hnone
    cases hnone
  · intro hsep
    rcases hcut : cut? sep s with _ | ⟨before, after⟩
    · rfl
    · rw [eq_of_cut? hcut] at hsep
      exact absurd (List.mem_append_right _ List.mem_cons_self) hsep

theorem cut?_eq_some_iff {sep : α} {s before after : List α} :
    cut? sep s = some (before, after) ↔ s = before ++ sep :: after ∧ sep ∉ before := by
  constructor
  · intro hcut
    have hmem : sep ∈ s := by
      rw [eq_of_cut? hcut]
      exact List.mem_append_right _ List.mem_cons_self
    obtain ⟨first, rest, rfl, hfirst⟩ := List.eq_append_cons_of_mem hmem
    rw [cut?_append hfirst] at hcut
    cases hcut
    exact ⟨rfl, hfirst⟩
  · rintro ⟨rfl, hbefore⟩
    exact cut?_append hbefore after

theorem append_cons_inj {sep : α} {before before' after after' : List α} (hbefore : sep ∉ before)
    (hbefore' : sep ∉ before') (heq : before ++ sep :: after = before' ++ sep :: after') :
    before = before' ∧ after = after' := by
  have hcut := cut?_append hbefore after
  rw [heq, cut?_append hbefore' after'] at hcut
  cases hcut
  exact ⟨rfl, rfl⟩

theorem cutLast?_eq_none_iff {sep : α} {s : List α} : cutLast? sep s = none ↔ sep ∉ s := by
  rw [cutLast?, Option.map_eq_none_iff, cut?_eq_none_iff, List.mem_reverse]

theorem cutLast?_eq_some_iff {sep : α} {s before after : List α} :
    cutLast? sep s = some (before, after) ↔ s = before ++ sep :: after ∧ sep ∉ after := by
  constructor
  · intro hcut
    rw [cutLast?, Option.map_eq_some_iff] at hcut
    obtain ⟨⟨last, front⟩, hreverse, hpair⟩ := hcut
    obtain ⟨hs, hlast⟩ := cut?_eq_some_iff.mp hreverse
    cases hpair
    refine ⟨?_, by simpa using hlast⟩
    rw [← List.reverse_reverse s, hs]
    simp
  · rintro ⟨rfl, hafter⟩
    exact cutLast?_append before hafter

/-! ### All pieces -/

theorem mem_of_mem_pieces {sep c : α} {s piece : List α} (hpiece : piece ∈ pieces sep s)
    (hc : c ∈ piece) : c ∈ s := by
  induction s generalizing piece with
  | nil =>
      rw [pieces, List.mem_singleton] at hpiece
      rw [hpiece] at hc
      exact hc
  | cons d rest ih =>
      rw [pieces] at hpiece
      split at hpiece
      · rcases List.mem_cons.mp hpiece with rfl | hpiece
        · exact absurd hc List.not_mem_nil
        · exact List.mem_cons_of_mem _ (ih hpiece hc)
      · split at hpiece
        · rw [List.mem_singleton] at hpiece
          rw [hpiece, List.mem_singleton] at hc
          rw [hc]
          exact List.mem_cons_self
        · next first others hrest =>
          rcases List.mem_cons.mp hpiece with rfl | hpiece
          · rcases List.mem_cons.mp hc with rfl | hc
            · exact List.mem_cons_self
            · exact List.mem_cons_of_mem _ (ih (hrest ▸ List.mem_cons_self) hc)
          · exact List.mem_cons_of_mem _ (ih (hrest ▸ List.mem_cons_of_mem _ hpiece) hc)

/-- Another spelling of the characters has the same pieces, if no other character is spelled as the
separator. -/
theorem pieces_map {β : Type} [DecidableEq β] {f : α → β} {sep : α} {s : List α}
    (hsep : ∀ c ∈ s, f c = f sep → c = sep) :
    pieces (f sep) (s.map f) = (pieces sep s).map (List.map f) := by
  induction s with
  | nil => rfl
  | cons c rest ih =>
      have hrest := ih fun d hd => hsep d (List.mem_cons_of_mem _ hd)
      rw [List.map_cons, pieces, pieces, hrest]
      by_cases hc : c = sep
      · rw [if_pos (congrArg f hc), if_pos hc]
        rfl
      · rw [if_neg (mt (hsep c List.mem_cons_self) hc), if_neg hc]
        cases pieces sep rest <;> rfl

/-! ### Stripping -/

theorem strip_map {α β : Type} (p : β → Bool) (f : α → β) (s : List α) :
    strip p (s.map f) = (strip (p ∘ f) s).map f := by
  rw [strip, strip, List.dropWhile_map, ← List.map_reverse, List.dropWhile_map, ← List.map_reverse]

theorem strip_congr {β : Type} {p q : β → Bool} {s : List β} (hpq : ∀ b ∈ s, p b = q b) :
    strip p s = strip q s := by
  have hdrop : ∀ t : List β, (∀ b ∈ t, p b = q b) → t.dropWhile p = t.dropWhile q := by
    intro t ht
    induction t with
    | nil => rfl
    | cons b rest ih =>
        rw [List.dropWhile_cons, List.dropWhile_cons, ht b List.mem_cons_self,
          ih fun c hc => ht c (List.mem_cons_of_mem _ hc)]
  rw [strip, strip, hdrop s hpq, hdrop]
  intro b hb
  exact hpq b ((List.dropWhile_sublist _).mem (List.mem_reverse.mp hb))

theorem takeWhile_of_forall {β : Type} {p : β → Bool} {s : List β} (hs : ∀ b ∈ s, p b = true) :
    s.takeWhile p = s := by
  calc s.takeWhile p = (s ++ []).takeWhile p := by rw [List.append_nil]
    _ = s ++ [] := List.takeWhile_append_of_pos hs
    _ = s := List.append_nil s

theorem drop_takeWhile {β : Type} (p : β → Bool) (s : List β) :
    s.drop (s.takeWhile p).length = s.dropWhile p := by
  have hsplit : s.takeWhile p ++ s.dropWhile p = s := List.takeWhile_append_dropWhile
  calc s.drop (s.takeWhile p).length
      = (s.takeWhile p ++ s.dropWhile p).drop (s.takeWhile p).length := by rw [hsplit]
    _ = s.dropWhile p := List.drop_left

theorem dropWhile_of_forall {β : Type} {p : β → Bool} {s : List β} (hs : ∀ b ∈ s, p b = false) :
    s.dropWhile p = s := by
  cases s with
  | nil => rfl
  | cons b rest =>
      have hb := hs b List.mem_cons_self
      rw [List.dropWhile_cons_of_neg (by simp [hb])]

/-- What is stripped is what stands around, and no more. -/
theorem strip_append {β : Type} {p : β → Bool} {front s back : List β}
    (hfront : ∀ b ∈ front, p b = true) (hs : ∀ b ∈ s, p b = false)
    (hback : ∀ b ∈ back, p b = true) : strip p (front ++ s ++ back) = s := by
  rw [strip, List.append_assoc, List.dropWhile_append_of_pos hfront]
  cases s with
  | nil =>
      have hnil : (back ++ []).dropWhile p = [] := List.dropWhile_append_of_pos hback
      rw [List.append_nil] at hnil
      rw [List.nil_append, hnil]
      rfl
  | cons b rest =>
      have hb : ¬ p b = true := by simp [hs b List.mem_cons_self]
      have hreverse : ∀ c ∈ back.reverse, p c = true := by simpa using hback
      have hrest : ∀ c ∈ (b :: rest).reverse, p c = false :=
        fun c hc => hs c (List.mem_reverse.mp hc)
      rw [List.cons_append, List.dropWhile_cons_of_neg hb, ← List.cons_append, List.reverse_append,
        List.dropWhile_append_of_pos hreverse, dropWhile_of_forall hrest, List.reverse_reverse]

theorem strip_of_forall {β : Type} {p : β → Bool} {s : List β} (hs : ∀ b ∈ s, p b = true) :
    strip p s = [] := by
  have hdrop : s.dropWhile p = [] := by
    rw [← drop_takeWhile, takeWhile_of_forall hs, List.drop_length]
  rw [strip, hdrop]
  rfl

/-- What is stripped away stood around what is left. -/
theorem exists_eq_append_strip {β : Type} (p : β → Bool) (s : List β) :
    ∃ front back, s = front ++ strip p s ++ back ∧ (∀ b ∈ front, p b = true) ∧
      ∀ b ∈ back, p b = true := by
  refine ⟨s.takeWhile p, ((s.dropWhile p).reverse.takeWhile p).reverse, ?_, ?_, ?_⟩
  · rw [strip, List.append_assoc, ← List.reverse_append, List.takeWhile_append_dropWhile,
      List.reverse_reverse, List.takeWhile_append_dropWhile]
  · exact List.all_eq_true.mp List.all_takeWhile
  · intro b hb
    exact List.all_eq_true.mp List.all_takeWhile b (List.mem_reverse.mp hb)

theorem eq_false_of_head?_dropWhile {β : Type} {p : β → Bool} {s : List β} {b : β}
    (hb : (s.dropWhile p).head? = some b) : p b = false := by
  have hhead := List.head?_dropWhile_not p s
  rw [hb] at hhead
  simpa using hhead

/-- What is left neither begins nor ends with what is stripped away. -/
theorem eq_false_of_end_strip {β : Type} {p : β → Bool} {s : List β} {b : β}
    (hb : (strip p s).head? = some b ∨ (strip p s).getLast? = some b) : p b = false := by
  rcases hb with hb | hb
  · have hprefix : strip p s <+: s.dropWhile p := by
      rw [← List.reverse_suffix, strip, List.reverse_reverse]
      exact List.dropWhile_suffix p
    obtain ⟨rest, hrest⟩ := hprefix
    apply eq_false_of_head?_dropWhile
    rw [← hrest, List.head?_append, hb]
    rfl
  · rw [strip, List.getLast?_reverse] at hb
    exact eq_false_of_head?_dropWhile hb

/-! ### Behind the last separator -/

theorem afterLast_suffix (sep : α) (s : List α) : afterLast sep s <:+ s := by
  rw [← List.reverse_prefix, afterLast, List.reverse_reverse]
  exact List.takeWhile_prefix _

theorem notMem_afterLast (sep : α) (s : List α) : sep ∉ afterLast sep s := by
  intro hmem
  have hne := List.all_eq_true.mp List.all_takeWhile sep (List.mem_reverse.mp hmem)
  exact of_decide_eq_true hne rfl

/-- What holds no separator comes behind the last one as a whole. -/
theorem afterLast_append_of_notMem {sep : α} (front : List α) {tail : List α} (htail : sep ∉ tail) :
    afterLast sep (front ++ tail) = afterLast sep front ++ tail := by
  have hne := ne_of_notMem (mt List.mem_reverse.mp htail)
  rw [afterLast, List.reverse_append, List.takeWhile_append_of_pos hne, List.reverse_append,
    List.reverse_reverse, afterLast]

theorem afterLast_of_notMem {sep : α} {s : List α} (hsep : sep ∉ s) : afterLast sep s = s :=
  afterLast_append_of_notMem [] hsep

theorem afterLast_append {sep : α} (before : List α) {after : List α} (hafter : sep ∉ after) :
    afterLast sep (before ++ sep :: after) = after := by
  rw [List.append_cons, afterLast_append_of_notMem _ hafter]
  simp [afterLast]

end SigningProxy.Text
