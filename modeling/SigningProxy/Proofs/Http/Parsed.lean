import SigningProxy.Proofs.Except
import SigningProxy.Proofs.Http.Uri

/-!
# What is read from the text of an address

The address of a request is never so long that the place of its question mark is kept as another one.
Therefore it is cut where its first mark stands, and neither its path nor its query holds anything that
would end it.

A path and query that are put together are read as they were put together exactly if there is no query or
the path leaves room for the place of the mark.

The scheme of an encrypted connection is recognised in any case of its letters, and no other scheme is taken for
it.
-/

namespace SigningProxy

namespace Uri

variable {s tail : List Char} {path : String} {query behind : Option String}

/-! ### Reading a path and query -/

theorem pathText_plain (hread : pathAndQuery s = .ok (path, behind)) :
    ∀ c ∈ pathText s, isPathChar c = true := by
  unfold pathAndQuery at hread
  dsimp only at hread
  split at hread
  · cases hread
  · next hall => simpa [pathText] using hall

theorem eq_of_marked (hmark : Marked s) : ∃ rest, s = pathText s ++ '?' :: rest := by
  obtain ⟨rest, hdrop⟩ := List.head?_eq_some_iff.mp hmark
  rw [pathText, Text.drop_takeWhile] at hdrop
  refine ⟨rest, ?_⟩
  rw [← hdrop]
  exact List.takeWhile_append_dropWhile.symm

theorem takeWhile_of_no_hash (hs : '#' ∉ s) : s.takeWhile (· ≠ '#') = s := by
  apply Text.takeWhile_of_forall
  intro c hc
  rw [decide_eq_true_eq]
  rintro rfl
  exact hs hc

theorem hash_notMem_of_query (hs : ∀ c ∈ s, isQueryChar c = true) : '#' ∉ s := by
  intro hmem
  exact absurd (hs '#' hmem) (by decide)

theorem toList_rooted (hs : s ≠ []) : (rooted s).toList = s := by
  rw [rooted, if_neg (by simpa using hs), String.toList_ofList]

/-- Where the place of a question mark behind `s` is its length, that is where the text is cut. -/
theorem pathAndQuery_of_room (hs : ∀ c ∈ s, isPathChar c = true) (hroom : s.length < 65535)
    (hread : pathAndQuery (s ++ '?' :: tail) = .ok (path, behind)) :
    (∀ c ∈ tail.takeWhile (· ≠ '#'), isQueryChar c = true) ∧ path = rooted s ∧
      behind = some (String.ofList (tail.takeWhile (· ≠ '#'))) := by
  have hplace : markPlace s = s.length := Nat.mod_eq_of_lt (by omega)
  rw [pathAndQuery_marked hs, if_neg (by omega), hplace] at hread
  split at hread
  · cases hread
  · next hall =>
    cases hread
    refine ⟨by simpa using hall, by rw [List.take_length], ?_⟩
    rw [List.drop_append, List.drop_of_length_le (Nat.le_succ _), Nat.add_sub_cancel_left]
    rfl

/-- A text without room for the place is cut somewhere else. -/
theorem path_ne_of_no_room (hs : ∀ c ∈ s, isPathChar c = true) (hroom : 65535 ≤ s.length)
    (hread : pathAndQuery (s ++ '?' :: tail) = .ok (path, behind)) : path.toList ≠ s := by
  intro hpath
  have hlength := congrArg List.length hpath
  rw [pathAndQuery_marked hs] at hread
  split at hread
  · cases hread
    rw [toList_rooted (by simp), List.length_append, List.length_cons] at hlength
    omega
  · next hplace =>
    split at hread
    · cases hread
    · cases hread
      have hkept : markPlace s < 65536 := Nat.mod_lt _ (by decide)
      by_cases hnil : s.take (markPlace s) = []
      · rw [hnil] at hlength
        have hone : (rooted []).toList.length = 1 := rfl
        omega
      · rw [toList_rooted hnil, List.length_take] at hlength
        omega

/-- **A path and query are read as they were put together exactly if there is room,** or no query. -/
theorem read_withQuery_iff (hs : s ≠ []) (hmarks : pathText s = s)
    (hquery : ∀ q, query = some q → '#' ∉ q.toList)
    (hread : pathAndQuery (withQuery s query) = .ok (path, behind)) :
    path.toList = s ∧ behind = query ↔ query = none ∨ s.length < 65535 := by
  have hplain : ∀ c ∈ s, isPathChar c = true := by
    have hchars := pathText_plain hread
    rwa [pathText_withQuery, hmarks] at hchars
  cases query with
  | none =>
      rw [withQuery, pathAndQuery_plain hplain] at hread
      cases hread
      exact ⟨fun _ => .inl rfl, fun _ => ⟨toList_rooted hs, rfl⟩⟩
  | some query =>
      have hwhole := takeWhile_of_no_hash (hquery query rfl)
      constructor
      · rintro ⟨hpath, -⟩
        right
        apply Nat.lt_of_not_le
        intro hroom
        exact path_ne_of_no_room hplain hroom hread hpath
      · rintro (hnone | hroom)
        · cases hnone
        · obtain ⟨-, rfl, rfl⟩ := pathAndQuery_of_room hplain hroom hread
          rw [hwhole, String.ofList_toList]
          exact ⟨toList_rooted hs, rfl⟩

theorem eq_invalidCharacter_of_error {s : List Char} {cause : UriError}
    (hread : pathAndQuery s = .error cause) : cause = .invalidCharacter := by
  unfold pathAndQuery at hread
  dsimp only at hread
  split at hread
  · cases hread
    rfl
  · split at hread
    · split at hread
      · cases hread
      · split at hread
        · cases hread
          rfl
        · cases hread
    · cases hread

/-- Characters that can stand in a path and in a query are read, wherever the text is cut. -/
theorem exists_read_of_plain {s : List Char} {query : Option String}
    (hplain : ∀ c ∈ s, isPathChar c = true)
    (hchars : ∀ q, query = some q → ∀ c ∈ q.toList, isQueryChar c = true) :
    ∃ read, pathAndQuery (withQuery s query) = .ok read := by
  cases query with
  | none => exact ⟨_, pathAndQuery_plain hplain⟩
  | some q =>
      rw [withQuery, pathAndQuery_marked hplain]
      split
      · exact ⟨_, rfl⟩
      · rw [takeWhile_of_no_hash (hash_notMem_of_query (hchars q rfl)),
          if_neg (by simpa using hchars q rfl)]
        exact ⟨_, rfl⟩

/-- A path and query that leave room can be read exactly if each of their characters can stand there. -/
theorem exists_read_iff {s : List Char} {query : Option String} (hmarks : pathText s = s)
    (hquery : ∀ q, query = some q → '#' ∉ q.toList) (hroom : query = none ∨ s.length < 65535) :
    (∃ read, pathAndQuery (withQuery s query) = .ok read) ↔
      (∀ c ∈ s, isPathChar c = true) ∧ ∀ q, query = some q → ∀ c ∈ q.toList, isQueryChar c = true := by
  constructor
  · rintro ⟨⟨path, behind⟩, hread⟩
    have hplain := pathText_plain hread
    rw [pathText_withQuery, hmarks] at hplain
    refine ⟨hplain, ?_⟩
    rintro q rfl
    have hshort : s.length < 65535 := by simpa using hroom
    obtain ⟨hchars, -⟩ := pathAndQuery_of_room hplain hshort hread
    rwa [takeWhile_of_no_hash (hquery q rfl)] at hchars
  · rintro ⟨hplain, hchars⟩
    exact exists_read_of_plain hplain hchars

/-! ### Parsed addresses -/

/-- Nothing in the path of an address, nor in its query, ends it. -/
structure Plain (uri : Uri) : Prop where
  path : ∀ c ∈ uri.path.toList, isPathChar c = true
  query : ∀ query, uri.query = some query → ∀ c ∈ query.toList, isQueryChar c = true

theorem plain_rooted (hs : ∀ c ∈ s, isPathChar c = true) :
    ∀ c ∈ (rooted s).toList, isPathChar c = true := by
  cases s with
  | nil => exact List.all_eq_true.mp (by decide)
  | cons c rest =>
      rw [toList_rooted (List.cons_ne_nil _ _)]
      exact hs

/-- What is read from a text that is not too long is plain. -/
theorem plain_of_read {scheme authority : Option String} (hlength : s.length < 65535)
    (hread : pathAndQuery s = .ok (path, behind)) : Plain ⟨scheme, authority, path, behind⟩ := by
  have hplain := pathText_plain hread
  have hshort : (pathText s).length < 65535 :=
    Nat.lt_of_le_of_lt (List.takeWhile_prefix _).length_le hlength
  by_cases hmark : Marked s
  · obtain ⟨rest, hs⟩ := eq_of_marked hmark
    rw [hs] at hread
    obtain ⟨hquery, rfl, rfl⟩ := pathAndQuery_of_room hplain hshort hread
    refine ⟨plain_rooted hplain, ?_⟩
    intro query heq
    cases heq
    rwa [String.toList_ofList]
  · obtain ⟨rfl, rfl⟩ := read_of_not_marked hmark hread
    refine ⟨plain_rooted hplain, ?_⟩
    intro query heq
    cases heq

/-- An address without path and query. -/
theorem plain_of_bare {scheme authority : Option String} : Plain ⟨scheme, authority, "", none⟩ := by
  constructor
  · intro c hc
    cases hc
  · intro query heq
    cases heq

theorem length_cutScheme {scheme : Option String} {rest : List Char}
    (hcut : cutScheme s = .ok (scheme, rest)) : rest.length ≤ s.length := by
  unfold cutScheme at hcut
  dsimp only at hcut
  split at hcut
  · cases hcut
    exact List.length_drop ▸ Nat.sub_le _ _
  · split at hcut
    · cases hcut
      exact List.length_drop ▸ Nat.sub_le _ _
    · split at hcut
      · cases hcut
        exact Nat.le_refl _
      · split at hcut
        · next hdrop =>
          split at hcut
          · cases hcut
          · cases hcut
            have hlength := congrArg List.length hdrop
            simp only [List.length_drop, List.length_cons] at hlength
            omega
        · cases hcut
          exact Nat.le_refl _

theorem plain_of_parseAbsolute {uri : Uri} (hlength : s.length < 65535)
    (hparse : parseAbsolute s = .ok uri) : uri.Plain := by
  rw [parseAbsolute] at hparse
  obtain ⟨⟨scheme, rest⟩, hcut, hparse⟩ := Except.bind_eq_ok.mp hparse
  obtain ⟨⟨⟩, -, hparse⟩ := Except.bind_eq_ok.mp hparse
  have htail : (rest.drop (authorityText rest).length).length < 65535 := by
    have hrest := length_cutScheme hcut
    rw [List.length_drop]
    omega
  dsimp only at hparse
  split at hparse
  · split at hparse
    · cases hparse
      exact plain_of_bare
    · cases hparse
  · split at hparse
    · cases hparse
    · obtain ⟨⟨path, behind⟩, hread, hparse⟩ := Except.bind_eq_ok.mp hparse
      cases hparse
      exact plain_of_read htail hread

theorem utf8ByteSize_cons (c : Char) (rest : List Char) :
    (String.ofList (c :: rest)).utf8ByteSize = c.utf8Size + (String.ofList rest).utf8ByteSize := by
  rw [String.ofList_cons, String.utf8ByteSize_append, String.utf8ByteSize_singleton]

theorem length_le_utf8ByteSize (text : String) : text.toList.length ≤ text.utf8ByteSize := by
  rw [← String.ofList_toList (s := text), String.toList_ofList]
  induction text.toList with
  | nil => exact Nat.zero_le _
  | cons c rest ih =>
      have hsize := c.utf8Size_pos
      rw [utf8ByteSize_cons, List.length_cons]
      omega

theorem utf8Size_of_isPathChar {c : Char} (hc : isPathChar c = true) : c.utf8Size = 1 := by
  rw [Char.utf8Size_eq_one_iff, UInt32.le_iff_toNat_le]
  change c.toNat ≤ 127
  simp only [isPathChar, Bool.or_eq_true, Bool.and_eq_true, beq_iff_eq, decide_eq_true_eq] at hc
  omega

theorem utf8ByteSize_of_plain (hs : ∀ c ∈ s, isPathChar c = true) :
    (String.ofList s).utf8ByteSize = s.length := by
  induction s with
  | nil => rfl
  | cons c rest ih =>
      rw [utf8ByteSize_cons, utf8Size_of_isPathChar (hs c List.mem_cons_self),
        ih fun c hc => hs c (List.mem_cons_of_mem _ hc), List.length_cons]
      omega

/-- **What is parsed is plain.** -/
theorem plain_of_parse {text : String} {uri : Uri} (hparse : parse text = .ok uri) : uri.Plain := by
  have hbytes := length_le_utf8ByteSize text
  unfold parse at hparse
  split at hparse
  · cases hparse
  · next hlong =>
    split at hparse
    · cases hparse
    · cases hparse
      refine ⟨List.all_eq_true.mp (by decide), ?_⟩
      intro query heq
      cases heq
    · next rest htext =>
      obtain ⟨⟨path, behind⟩, hread, hparse⟩ := Except.bind_eq_ok.mp hparse
      cases hparse
      rw [htext] at hbytes
      exact plain_of_read (by omega) hread
    · obtain ⟨⟨⟩, -, hparse⟩ := Except.bind_eq_ok.mp hparse
      split at hparse
      · cases hparse
      · cases hparse
        exact plain_of_bare
    · exact plain_of_parseAbsolute (by omega) hparse

/-- A path is parsed as it stands. -/
theorem parse_of_path {text : String} (hhead : text.toList.head? = some '/')
    (hplain : ∀ c ∈ text.toList, isPathChar c = true) (hlength : text.toList.length ≤ 65534) :
    parse text = .ok ⟨none, none, text, none⟩ := by
  obtain ⟨rest, hrest⟩ := List.head?_eq_some_iff.mp hhead
  have hread := pathAndQuery_plain hplain
  have hrooted : rooted text.toList = text := by
    apply String.toList_inj.mp
    apply toList_rooted
    rw [hrest]
    exact List.cons_ne_nil _ _
  have hsize := utf8ByteSize_of_plain hplain
  rw [String.ofList_toList] at hsize
  rw [hrooted, hrest] at hread
  rw [parse, if_neg (by omega), hrest]
  exact Except.bind_eq_ok.mpr ⟨_, hread, rfl⟩

/-! ### The scheme -/

/-- An address begins with the scheme of encrypted connections, in any case of its letters. -/
def NamesSecure (text : String) : Prop := (text.toList.take 8).map Char.toLower = "https://".toList

theorem scheme_of_cutScheme {scheme : Option String} {rest : List Char}
    (hcut : cutScheme s = .ok (scheme, rest)) :
    scheme = some "https" ↔ (s.take 8).map Char.toLower = "https://".toList := by
  unfold cutScheme at hcut
  dsimp only at hcut
  split at hcut
  · next hplain =>
    cases hcut
    refine iff_of_false (by decide) ?_
    intro hsecure
    have hshort := congrArg (List.take 7) hsecure
    rw [← List.map_take, List.take_take, Nat.min_eq_left (by decide), hplain] at hshort
    exact absurd hshort (by decide)
  · split at hcut
    · next hsecure =>
      cases hcut
      exact iff_of_true rfl hsecure
    · next hother =>
      refine iff_of_false ?_ hother
      split at hcut
      · cases hcut
        exact nofun
      · split at hcut
        · next rest' hdrop =>
          split at hcut
          · cases hcut
          · cases hcut
            intro hname
            -- Only the scheme in lower case is kept as it stands, and that one has been recognised.
            have hword : s.takeWhile isSchemeChar = "https".toList := by
              rw [← Option.some.inj hname, String.toList_ofList]
            have hparts : s.takeWhile isSchemeChar ++ s.dropWhile isSchemeChar = s :=
              List.takeWhile_append_dropWhile
            rw [Text.drop_takeWhile] at hdrop
            rw [hword, hdrop] at hparts
            apply hother
            rw [← hparts]
            rfl
        · cases hcut
          exact nofun

theorem scheme_of_parseAbsolute {uri : Uri} (hparse : parseAbsolute s = .ok uri) :
    uri.scheme = some "https" ↔ (s.take 8).map Char.toLower = "https://".toList := by
  rw [parseAbsolute] at hparse
  obtain ⟨⟨scheme, rest⟩, hcut, hparse⟩ := Except.bind_eq_ok.mp hparse
  obtain ⟨⟨⟩, -, hparse⟩ := Except.bind_eq_ok.mp hparse
  have hscheme : uri.scheme = scheme := by
    dsimp only at hparse
    split at hparse
    · split at hparse
      · cases hparse
        rfl
      · cases hparse
    · split at hparse
      · cases hparse
      · obtain ⟨⟨path, behind⟩, -, hparse⟩ := Except.bind_eq_ok.mp hparse
        cases hparse
        rfl
  rw [hscheme, scheme_of_cutScheme hcut]

/-- **Whether a connection is encrypted is read off the beginning of the address.** -/
theorem isSecure_iff_namesSecure {text : String} {uri : Uri} (hparse : parse text = .ok uri) :
    uri.isSecure = true ↔ NamesSecure text := by
  rw [isSecure, beq_iff_eq, NamesSecure]
  unfold parse at hparse
  split at hparse
  · cases hparse
  · split at hparse
    · cases hparse
    · next htext =>
      cases hparse
      rw [htext]
      decide
    · next rest htext =>
      obtain ⟨⟨path, behind⟩, -, hparse⟩ := Except.bind_eq_ok.mp hparse
      cases hparse
      rw [htext]
      exact iff_of_false nofun fun hsecure => absurd (List.cons.inj hsecure).1 (by decide)
    · next c _ _ htext =>
      obtain ⟨⟨⟩, -, hparse⟩ := Except.bind_eq_ok.mp hparse
      split at hparse
      · cases hparse
      · cases hparse
        rw [htext]
        exact iff_of_false nofun fun hsecure => absurd (congrArg List.length hsecure) (by simp)
    · exact scheme_of_parseAbsolute hparse

end Uri

end SigningProxy
