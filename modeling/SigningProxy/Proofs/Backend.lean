import SigningProxy.Backend.Basic
import SigningProxy.Backend.Joining
import SigningProxy.Proofs.Text.Cut

/-!
# Joining a backend's path and query with a request's

Joining two paths takes away the slash that ends the first and the one that begins the second, if they are
there, and puts one in between. The path of a backend is empty or begins with a slash, and holds nothing that
ends a path. So a joined path begins with a slash and with all of the backend's.
-/

namespace SigningProxy

/-! ### Joining -/

variable {path : List Char}

/-- A path without the slash that ends it. -/
def withoutLastSlash (path : List Char) : List Char :=
  if path.getLast? = some '/' then path.dropLast else path

/-- A path without the slash that begins it. -/
def withoutFirstSlash (path : List Char) : List Char :=
  if path.head? = some '/' then path.tail else path

/-- Two paths with the slashes between them made one. -/
def slashed (first second : String) : List Char :=
  withoutLastSlash first.toList ++ '/' :: withoutFirstSlash second.toList

/-- The queries that are there and are not empty, with ampersands between them. -/
def ampersanded (first second : Option String) : Option String :=
  match (first.toList ++ second.toList).filter (!·.isEmpty) with
  | [] => none
  | queries => some ("&".intercalate queries)

theorem withoutLastSlash_append (hlast : path.getLast? = some '/') (rest : List Char) :
    withoutLastSlash path ++ '/' :: rest = path ++ rest := by
  obtain ⟨front, rfl⟩ := List.getLast?_eq_some_iff.mp hlast
  rw [withoutLastSlash, if_pos hlast, List.dropLast_concat, List.append_assoc]
  rfl

theorem withoutLastSlash_of_ne (hlast : path.getLast? ≠ some '/') : withoutLastSlash path = path :=
  if_neg hlast

theorem withoutFirstSlash_of_ne (hfirst : ∀ rest, path ≠ '/' :: rest) :
    withoutFirstSlash path = path := by
  apply if_neg
  intro hslash
  obtain ⟨rest, hrest⟩ := List.head?_eq_some_iff.mp hslash
  exact hfirst rest hrest

theorem toList_joinPath (first second : String) :
    (joinPath first second).toList = slashed first second := by
  have hhead : ∀ rest, withoutFirstSlash ('/' :: rest) = rest := fun _ => rfl
  unfold joinPath slashed
  split
  · next rest hlast hsecond =>
    rw [hsecond, withoutLastSlash_append hlast, hhead, String.toList_append, String.toList_ofList]
  · next hlast hsecond =>
    rw [withoutLastSlash_append hlast, withoutFirstSlash_of_ne hsecond, String.toList_append]
  · next rest hsecond hlast =>
    rw [hsecond, withoutLastSlash_of_ne hlast, hhead, String.toList_append, hsecond]
  · next hlast hsecond _ =>
    rw [withoutLastSlash_of_ne hlast, withoutFirstSlash_of_ne hsecond, String.toList_append,
      String.toList_append, List.append_assoc]
    rfl

theorem joinQuery_eq (first second : Option String) :
    joinQuery first second = ampersanded first second := by
  rw [joinQuery, ampersanded, List.filter_append, ← Option.toList_filter, ← Option.toList_filter]
  cases first.filter fun q => !q.isEmpty <;> cases second.filter fun q => !q.isEmpty <;> rfl

theorem slashed_of_slash {first second : String} (hlast : first.toList.getLast? ≠ some '/')
    (hfirst : second.toList.head? = some '/') :
    slashed first second = first.toList ++ second.toList := by
  obtain ⟨rest, hrest⟩ := List.head?_eq_some_iff.mp hfirst
  rw [slashed, withoutLastSlash_of_ne hlast, hrest]
  rfl

theorem mem_slashed {first second : String} {c : Char} (hc : c ∈ slashed first second) :
    c ∈ first.toList ∨ c = '/' ∨ c ∈ second.toList := by
  rw [slashed, List.mem_append, List.mem_cons, withoutLastSlash, withoutFirstSlash] at hc
  rcases hc with hfirst | hslash | hsecond
  · left
    split at hfirst
    · exact List.dropLast_subset _ hfirst
    · exact hfirst
  · exact .inr (.inl hslash)
  · right
    right
    split at hsecond
    · exact List.mem_of_mem_tail hsecond
    · exact hsecond

/-- A joined path begins with all of the first. -/
theorem prefix_slashed (first second : String) : first.toList <+: slashed first second := by
  by_cases hlast : first.toList.getLast? = some '/'
  · rw [slashed, withoutLastSlash_append hlast]
    exact List.prefix_append _ _
  · rw [slashed, withoutLastSlash_of_ne hlast]
    exact List.prefix_append _ _

theorem head?_slashed {first : String} (second : String)
    (hfirst : first = "" ∨ first.toList.head? = some '/') :
    (slashed first second).head? = some '/' := by
  rcases hfirst with rfl | hhead
  · rfl
  · obtain ⟨rest, hrest⟩ := prefix_slashed first second
    rw [← hrest, List.head?_append, hhead]
    rfl

theorem mem_ampersanded {first second : Option String} {query : String} {c : Char}
    (hquery : ampersanded first second = some query) (hc : c ∈ query.toList) :
    (∃ q, first = some q ∧ c ∈ q.toList) ∨ c = '&' ∨ ∃ q, second = some q ∧ c ∈ q.toList := by
  rw [← joinQuery_eq, joinQuery] at hquery
  split at hquery
  · next q r hq hr =>
    cases hquery
    simp only [String.toList_append, List.mem_append] at hc
    rcases hc with (hc | hc) | hc
    · exact .inl ⟨q, (Option.filter_eq_some_iff.mp hq).1, hc⟩
    · exact .inr (.inl (by simpa using hc))
    · exact .inr (.inr ⟨r, (Option.filter_eq_some_iff.mp hr).1, hc⟩)
  · next q hq hr =>
    cases hquery
    exact .inl ⟨query, (Option.filter_eq_some_iff.mp hq).1, hc⟩
  · exact .inr (.inr ⟨query, (Option.filter_eq_some_iff.mp hquery).1, hc⟩)

theorem not_mem_ampersanded {first second : Option String} {c : Char} (hc : c ≠ '&')
    (hfirst : ∀ query, first = some query → c ∉ query.toList)
    (hsecond : ∀ query, second = some query → c ∉ query.toList) {query : String}
    (hquery : ampersanded first second = some query) : c ∉ query.toList := by
  intro hmem
  rcases mem_ampersanded hquery hmem with ⟨q, hq, hmem⟩ | hmark | ⟨q, hq, hmem⟩
  · exact hfirst q hq hmem
  · exact hc hmark
  · exact hsecond q hq hmem

/-- The first query stands at the front, if there is anything in it. -/
theorem prefix_ampersanded {first : String} (second : Option String) (hfirst : first ≠ "") :
    ∃ query, ampersanded (some first) second = some query ∧ first.toList <+: query.toList := by
  have hthere : (some first).filter (fun q => !q.isEmpty) = some first := by
    simpa [Option.filter] using hfirst
  rw [← joinQuery_eq, joinQuery, hthere]
  cases second.filter (fun q => !q.isEmpty) with
  | none => exact ⟨first, rfl, List.prefix_rfl⟩
  | some r =>
      refine ⟨_, rfl, ?_⟩
      rw [String.toList_append, String.toList_append, List.append_assoc]
      exact List.prefix_append _ _

/-! ### Joining more than two -/

theorem withoutLastSlash_append_of_ne_nil {rest : List Char} (hrest : rest ≠ []) (front : List Char) :
    withoutLastSlash (front ++ rest) = front ++ withoutLastSlash rest := by
  rw [withoutLastSlash, withoutLastSlash, List.getLast?_append, List.dropLast_append_of_ne_nil hrest,
    List.getLast?_eq_some_getLast hrest, Option.some_or]
  split <;> rfl

theorem withoutFirstSlash_append_of_ne_nil {front : List Char} (hfront : front ≠ [])
    (rest : List Char) : withoutFirstSlash (front ++ rest) = withoutFirstSlash front ++ rest := by
  obtain ⟨c, front, rfl⟩ := List.exists_cons_of_ne_nil hfront
  rw [List.cons_append, withoutFirstSlash, withoutFirstSlash, List.head?_cons, List.head?_cons]
  split <;> rfl

/-- In a path that is more than a slash, the slash at the end is another one than that at the start. -/
theorem slashes_apart {path : List Char} (hslash : path ≠ ['/']) (hnil : path ≠ []) :
    withoutFirstSlash path ≠ [] ∧ withoutLastSlash path ≠ [] ∧
      withoutLastSlash (withoutFirstSlash path) = withoutFirstSlash (withoutLastSlash path) := by
  obtain ⟨c, tail, rfl⟩ := List.exists_cons_of_ne_nil hnil
  by_cases htail : tail = []
  · subst htail
    have hc : c ≠ '/' := fun h => hslash (by rw [h])
    have hfirst : withoutFirstSlash [c] = [c] := if_neg (by simpa using hc)
    have hlast : withoutLastSlash [c] = [c] := if_neg (by simpa using hc)
    rw [hfirst, hlast, hfirst]
    exact ⟨hnil, hnil, rfl⟩
  · have hlast := withoutLastSlash_append_of_ne_nil htail [c]
    rw [List.singleton_append, List.singleton_append] at hlast
    rw [hlast]
    by_cases hc : c = '/'
    · subst hc
      exact ⟨htail, List.cons_ne_nil _ _, rfl⟩
    · have hfirst : ∀ rest, withoutFirstSlash (c :: rest) = c :: rest :=
        fun rest => if_neg (by simpa using hc)
      rw [hfirst, hfirst, hlast]
      exact ⟨hnil, List.cons_ne_nil _ _, rfl⟩

theorem slashed_middle (front middle rest : List Char) :
    withoutLastSlash (front ++ '/' :: withoutFirstSlash middle) ++ '/' :: rest =
      front ++ '/' :: withoutFirstSlash (withoutLastSlash middle ++ '/' :: rest) := by
  by_cases hshort : middle = [] ∨ middle = ['/']
  · have hfirst : withoutFirstSlash middle = [] := by
      rcases hshort with rfl | rfl <;> rfl
    have hlast : withoutLastSlash middle = [] := by
      rcases hshort with rfl | rfl <;> rfl
    have halone : withoutLastSlash (front ++ ['/']) = front := by
      rw [withoutLastSlash_append_of_ne_nil (List.cons_ne_nil _ _)]
      exact List.append_nil _
    rw [hfirst, hlast, halone]
    rfl
  · obtain ⟨hnil, hslash⟩ := not_or.mp hshort
    obtain ⟨hfirst, hlast, hsame⟩ := slashes_apart hslash hnil
    rw [List.append_cons front, withoutLastSlash_append_of_ne_nil hfirst, hsame,
      withoutFirstSlash_append_of_ne_nil hlast, List.append_assoc, List.append_assoc]
    rfl

/-- **Joining paths is associative.** -/
theorem joinPath_assoc (first second third : String) :
    joinPath (joinPath first second) third = joinPath first (joinPath second third) := by
  apply String.toList_inj.mp
  rw [toList_joinPath, toList_joinPath, slashed, slashed, toList_joinPath, toList_joinPath]
  exact slashed_middle _ _ _

theorem joinQuery_filter (first second : Option String) :
    (joinQuery first second).filter (!·.isEmpty) = joinQuery first second := by
  rw [joinQuery]
  split
  · next q r hq _ =>
    have hne := (Option.filter_eq_some_iff.mp hq).2
    simp_all
  · next q hq _ => rw [← hq, Option.filter_filter]; simp
  · rw [Option.filter_filter]; simp

/-- A query that is absent or empty adds nothing. -/
theorem joinQuery_unit {unit : Option String} (hunit : unit.filter (!·.isEmpty) = none)
    (query : Option String) :
    joinQuery unit query = query.filter (!·.isEmpty) ∧
      joinQuery query unit = query.filter (!·.isEmpty) := by
  rw [joinQuery, joinQuery, hunit]
  cases query.filter fun q => !q.isEmpty <;> exact ⟨rfl, rfl⟩

theorem joinQuery_assoc (first second third : Option String) :
    joinQuery (joinQuery first second) third = joinQuery first (joinQuery second third) := by
  rw [joinQuery, joinQuery_filter, joinQuery.eq_1 first (joinQuery second third), joinQuery_filter,
    joinQuery, joinQuery]
  cases first.filter fun q => !q.isEmpty <;> cases second.filter fun q => !q.isEmpty <;>
    cases third.filter fun q => !q.isEmpty <;> simp [String.append_assoc]

/-! ### Plain backends -/

namespace Backend

/-- The path of a backend is empty or begins with a slash, and nothing in it or in the query ends it. -/
structure Plain (b : Backend) : Prop where
  rooted : b.path = "" ∨ b.path.toList.head? = some '/'
  path : ∀ c ∈ b.path.toList, c ≠ '?' ∧ c ≠ '#'
  query : ∀ query, b.query = some query → '#' ∉ query.toList

end Backend

end SigningProxy
