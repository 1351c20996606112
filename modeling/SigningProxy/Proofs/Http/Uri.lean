import SigningProxy.Http.Uri
import SigningProxy.Proofs.Text.Cut

/-!
# Where the path of an address ends

The path of a text ends before its first mark, which is a question mark or a number sign. The place of
a question mark is kept in 16 bits, so a path of `2 ^ 16 - 1` characters or more is cut at the
remainder, and the remainder `2 ^ 16 - 1` means that there is no query: then what stands behind the
mark is taken for a part of the path.
-/

namespace SigningProxy.Uri

/-- The stretch of `s` before its first mark. -/
def pathText (s : List Char) : List Char := s.takeWhile fun c => c ≠ '?' && c ≠ '#'

/-- The place of a question mark behind `path`, as it is kept. -/
def markPlace (path : List Char) : Nat := path.length % 65536

/-- A text has a question mark behind its path. -/
def Marked (s : List Char) : Prop := (s.drop (pathText s).length).head? = some '?'

/-- Without a question mark the path is everything before the first mark, and there is no query. -/
theorem read_of_not_marked {s : List Char} {path : String} {query : Option String}
    (hmark : ¬ Marked s) (hread : pathAndQuery s = .ok (path, query)) :
    path = rooted (pathText s) ∧ query = none := by
  unfold pathAndQuery at hread
  dsimp only at hread
  split at hread
  · cases hread
  · split at hread
    · next rest hdrop => exact absurd (congrArg List.head? hdrop) hmark
    · cases hread
      exact ⟨rfl, rfl⟩

/-- With a question mark at a place that is kept, the path is cut at the kept place. -/
theorem path_of_marked {s : List Char} {path : String} {query : Option String}
    (hmark : Marked s) (hplace : markPlace (pathText s) ≠ 65535)
    (hread : pathAndQuery s = .ok (path, query)) :
    path = rooted ((pathText s).take (markPlace (pathText s))) := by
  unfold pathAndQuery at hread
  dsimp only at hread
  split at hread
  · cases hread
  · split at hread
    · split at hread
      · next hlast => exact absurd hlast hplace
      · split at hread
        · cases hread
        · cases hread
          rw [List.take_append_of_le_length (Nat.mod_le _ _)]
          rfl
    · next hother =>
      obtain ⟨rest, hrest⟩ := List.head?_eq_some_iff.mp hmark
      exact absurd hrest (hother rest)

/-! ### Paths with different queries -/

/-- A path with its query behind a question mark, if there is one. -/
def withQuery (path : List Char) : Option String → List Char
  | none => path
  | some query => path ++ '?' :: query.toList

theorem pathText_withQuery (path : List Char) (query : Option String) :
    pathText (withQuery path query) = pathText path := by
  cases query with
  | none => rfl
  | some query =>
      rw [withQuery, pathText, List.takeWhile_append]
      split
      · next hwhole =>
        rw [List.takeWhile_cons_of_neg (by decide), List.append_nil]
        exact ((List.takeWhile_prefix _).eq_of_length hwhole).symm
      · rfl

/-- The path of a text is settled by what stands before its query: the queries are the same, or the
path is short enough for the place of a mark behind it, or both queries are there and the place that
is kept is one. -/
def PathSettled (path : List Char) (query other : Option String) : Prop :=
  query = other ∨ (pathText path).length < 65535 ∨
    (markPlace (pathText path) ≠ 65535 ∧ query.isSome ∧ other.isSome)

theorem path_of_short {s : List Char} {path : String} {query : Option String}
    (hshort : (pathText s).length < 65535) (hread : pathAndQuery s = .ok (path, query)) :
    path = rooted (pathText s) := by
  by_cases hmark : Marked s
  · have hplace : markPlace (pathText s) = (pathText s).length := Nat.mod_eq_of_lt (by omega)
    rw [path_of_marked hmark (by omega) hread, hplace, List.take_length]
  · exact (read_of_not_marked hmark hread).1

theorem marked_withQuery (s : List Char) (query other : String) :
    Marked (withQuery s (some query)) ↔ Marked (withQuery s (some other)) := by
  have hle : (pathText s).length ≤ s.length := (List.takeWhile_prefix _).length_le
  rw [Marked, Marked, pathText_withQuery, pathText_withQuery, withQuery, withQuery,
    List.drop_append_of_le_length hle, List.drop_append_of_le_length hle]
  cases s.drop (pathText s).length with
  | nil => rfl
  | cons c rest => rfl

/-- **Different queries, same path,** where the path is settled without them. -/
theorem path_eq_of_settled {s : List Char} {first second : Option String} {path path' : String}
    {query query' : Option String} (hsettled : PathSettled s first second)
    (hread : pathAndQuery (withQuery s first) = .ok (path, query))
    (hread' : pathAndQuery (withQuery s second) = .ok (path', query')) : path = path' := by
  have hfirst := pathText_withQuery s first
  have hsecond := pathText_withQuery s second
  rcases hsettled with rfl | hshort | ⟨hplace, hsome, hsome'⟩
  · rw [hread] at hread'
    cases hread'
    rfl
  · rw [path_of_short (hfirst ▸ hshort) hread, path_of_short (hsecond ▸ hshort) hread', hfirst,
      hsecond]
  · obtain ⟨first, rfl⟩ := Option.isSome_iff_exists.mp hsome
    obtain ⟨second, rfl⟩ := Option.isSome_iff_exists.mp hsome'
    by_cases hmark : Marked (withQuery s (some first))
    · have hmark' := (marked_withQuery s first second).mp hmark
      rw [path_of_marked hmark (hfirst ▸ hplace) hread,
        path_of_marked hmark' (hsecond ▸ hplace) hread', hfirst, hsecond]
    · have hmark' := fun h => hmark ((marked_withQuery s first second).mpr h)
      rw [(read_of_not_marked hmark hread).1, (read_of_not_marked hmark' hread').1, hfirst, hsecond]

/-! ### Paths without marks -/

theorem pathText_of_no_marks {s : List Char} (hs : ∀ c ∈ s, c ≠ '?' ∧ c ≠ '#') :
    pathText s = s := by
  apply Text.takeWhile_of_forall
  intro c hc
  rw [Bool.and_eq_true, decide_eq_true_eq, decide_eq_true_eq]
  exact hs c hc

theorem ne_marks_of_isPathChar {c : Char} (hc : isPathChar c = true) : c ≠ '?' ∧ c ≠ '#' := by
  constructor
  · rintro rfl
    exact absurd hc (by decide)
  · rintro rfl
    exact absurd hc (by decide)

theorem pathText_of_plain {s : List Char} (hs : ∀ c ∈ s, isPathChar c = true) : pathText s = s :=
  pathText_of_no_marks fun c hc => ne_marks_of_isPathChar (hs c hc)

theorem pathAndQuery_plain {s : List Char} (hs : ∀ c ∈ s, isPathChar c = true) :
    pathAndQuery s = .ok (rooted s, none) := by
  have hall : ¬ (!s.all isPathChar) = true := by simpa using hs
  have hpath := pathText_of_plain hs
  rw [pathText] at hpath
  unfold pathAndQuery
  dsimp only
  rw [hpath, if_neg hall, List.drop_length]

/-- A question mark behind a path is taken for none, or the text is cut where its place is kept. -/
theorem pathAndQuery_marked {s : List Char} (hs : ∀ c ∈ s, isPathChar c = true)
    (rest : List Char) :
    pathAndQuery (s ++ '?' :: rest) =
      if markPlace s = 65535 then .ok (rooted (s ++ '?' :: rest), none)
      else if !(rest.takeWhile (· ≠ '#')).all isQueryChar then .error .invalidCharacter
      else .ok (rooted (s.take (markPlace s)),
        some (String.ofList ((s ++ '?' :: rest.takeWhile (· ≠ '#')).drop (markPlace s + 1)))) := by
  have hall : ¬ (!s.all isPathChar) = true := by simpa using hs
  have hpath := pathText_withQuery s (some (String.ofList rest))
  rw [pathText_of_plain hs, withQuery, String.toList_ofList, pathText] at hpath
  have hcut : (s ++ '?' :: rest.takeWhile (· ≠ '#')).take (markPlace s) = s.take (markPlace s) :=
    List.take_append_of_le_length (Nat.mod_le _ _)
  unfold pathAndQuery
  dsimp only
  rw [hpath, if_neg hall, List.drop_left, ← hcut]
  rfl

/-- A query whose mark has the place that means that there is none is taken for a part of the path. -/
theorem pathAndQuery_of_lost {s : List Char} (hs : ∀ c ∈ s, isPathChar c = true)
    (hplace : markPlace s = 65535) (query : Option String) :
    pathAndQuery (withQuery s query) = .ok (rooted (withQuery s query), none) := by
  cases query with
  | none => exact pathAndQuery_plain hs
  | some query => rw [withQuery, pathAndQuery_marked hs, if_pos hplace]

/-! ### Built addresses -/

/-- A text that is the authority of an address, all of it. -/
structure IsAuthority (authority : String) : Prop where
  nonempty : authority.toList ≠ []
  whole : authorityText authority.toList = authority.toList
  sound : checkAuthority (authorityText authority.toList) = .ok ()

/-- **An address is built exactly from an authority and a path that can be read,** and has these as its
parts. -/
theorem build_eq_ok_iff {scheme authority text : String} {uri : Uri} :
    build scheme authority text = .ok uri ↔ IsAuthority authority ∧
      ∃ path query, pathAndQuery text.toList = .ok (path, query) ∧
        uri = ⟨some scheme, some authority, path, query⟩ := by
  constructor
  · intro hbuild
    unfold build at hbuild
    dsimp only [bind, Except.bind] at hbuild
    split at hbuild
    · cases hbuild
    · next hnonempty =>
      split at hbuild
      · cases hbuild
      · next hsound =>
        split at hbuild
        · cases hbuild
        · next hwhole =>
          split at hbuild
          · cases hbuild
          · next read hread =>
            cases hbuild
            exact ⟨⟨fun hnil => hnonempty (List.isEmpty_iff.mpr hnil), Decidable.not_not.mp hwhole,
              hsound⟩, read.1, read.2, hread, rfl⟩
  · rintro ⟨hauthority, path, query, hread, rfl⟩
    unfold build
    dsimp only [bind, Except.bind]
    rw [if_neg fun hempty => hauthority.nonempty (List.isEmpty_iff.mp hempty), hauthority.sound]
    dsimp only
    rw [if_neg fun hpart => hpart hauthority.whole, hread]

theorem build_of_isAuthority {authority : String} (hauthority : IsAuthority authority)
    (scheme text : String) :
    build scheme authority text = (pathAndQuery text.toList).map fun (path, query) =>
      ⟨some scheme, some authority, path, query⟩ := by
  unfold build
  dsimp only [bind, Except.bind]
  rw [if_neg fun hempty => hauthority.nonempty (List.isEmpty_iff.mp hempty), hauthority.sound]
  dsimp only
  rw [if_neg fun hpart => hpart hauthority.whole]
  cases pathAndQuery text.toList <;> rfl

/-- A text that is no authority is refused for a cause of its own, whatever is asked for. -/
theorem exists_fault {authority : String} (hauthority : ¬ IsAuthority authority) :
    ∃ cause, ∀ scheme text, build scheme authority text = .error cause := by
  unfold build
  dsimp only [bind, Except.bind]
  split
  · exact ⟨_, fun _ _ => rfl⟩
  · next hnonempty =>
    cases hsound : checkAuthority (authorityText authority.toList) with
    | error cause => exact ⟨cause, fun _ _ => rfl⟩
    | ok _ =>
        have hwhole : authorityText authority.toList ≠ authority.toList := by
          intro hwhole
          exact hauthority ⟨fun hnil => hnonempty (List.isEmpty_iff.mpr hnil), hwhole, hsound⟩
        dsimp only
        exact ⟨_, fun _ _ => if_pos hwhole⟩

end SigningProxy.Uri
