import SigningProxy.Proofs.Forward.Addressable

/-!
# Backends behind backends

A request that is addressed to one backend and then to another has the second one's scheme and authority,
and the paths and queries of both in front of its own, the second one's first. Joining is associative, so
one backend stands for the two: it has the two paths and the two queries joined.

Between the two the path and query are read from a text. They are found as they were put into it if there was
room in it. Otherwise the second backend's path and query are joined to something else than the first one's
and the request's.
-/

namespace SigningProxy.Backend

variable {b first second : Backend} {uri : Uri} {request : Request}

/-- The backend that stands for `first` and, behind it, `second`. -/
def behind (first second : Backend) : Backend :=
  { second with
    path := joinPath second.path first.path
    query := joinQuery second.query first.query }

/-- The address under which the first backend is asked, its path and query being the joined ones. -/
def joined (b : Backend) (uri : Uri) : Uri :=
  ⟨some b.scheme.text, some b.authority, joinPath b.path uri.path, joinQuery b.query uri.query⟩

theorem pathAndQuery_behind (first second : Backend) (uri : Uri) :
    (first.behind second).pathAndQuery uri = second.pathAndQuery (first.joined uri) := by
  simp only [pathAndQuery, behind, joined, joinPath_assoc, joinQuery_assoc]

theorem addressFor_behind (first second : Backend) (uri : Uri) :
    (first.behind second).addressFor uri = second.addressFor (first.joined uri) := by
  rw [addressFor, addressFor, pathAndQuery_behind]
  rfl

theorem plain_joined (haddressable : b.Addressable) (huri : uri.Plain) : (b.joined uri).Plain := by
  constructor
  · intro c hc
    rw [joined, toList_joinPath] at hc
    exact (isPathChar_slashed_iff huri.path).mpr haddressable.path c hc
  · intro query hquery
    rw [joined, joinQuery_eq] at hquery
    exact (isQueryChar_ampersanded_iff huri.query).mpr haddressable.query query hquery

theorem Confines.eq_joined {built : Uri} (hconfines : b.Confines uri built)
    (hscheme : built.scheme = some b.scheme.text) (hauthority : built.authority = some b.authority) :
    built = b.joined uri := by
  obtain ⟨scheme, authority, path, query⟩ := built
  obtain ⟨hpath, hquery⟩ := hconfines
  rw [← toList_joinPath, String.toList_inj] at hpath
  rw [← joinQuery_eq] at hquery
  simp only at hscheme hauthority hpath hquery
  rw [hscheme, hauthority, hpath, hquery, joined]

/-- A request for a plain address can be addressed, with or without room. -/
theorem exists_readdress (haddressable : b.Addressable) (huri : request.uri.Plain) :
    ∃ rewritten, b.readdress request = .ok rewritten := by
  have hjoined := plain_joined haddressable huri
  have hread : ∃ read, Uri.pathAndQuery (b.pathAndQuery request.uri).toList = .ok read := by
    rw [toList_pathAndQuery]
    exact Uri.exists_read_of_plain hjoined.path hjoined.query
  obtain ⟨⟨path, query⟩, hread⟩ := hread
  have hbuild : Uri.build b.scheme.text b.authority (b.pathAndQuery request.uri) =
      .ok ⟨some b.scheme.text, some b.authority, path, query⟩ :=
    Uri.build_eq_ok_iff.mpr ⟨haddressable.authority, path, query, hread, rfl⟩
  exact ⟨_, readdress_eq_ok_iff.mpr ⟨haddressable.port, _, hbuild, rfl⟩⟩

theorem readdress_eq_joined (hb : b.Plain) (haddressable : b.Addressable) (huri : request.uri.Plain)
    (hroom : b.HasRoom request.uri) :
    b.readdress request = .ok { request with uri := b.joined request.uri } := by
  obtain ⟨rewritten, hready⟩ := exists_readdress haddressable huri
  obtain ⟨-, built, hbuild, rfl⟩ := readdress_eq_ok_iff.mp hready
  have hconfines := (confines_iff_hasRoom hb huri hbuild).mpr hroom
  obtain ⟨-, path, query, -, rfl⟩ := Uri.build_eq_ok_iff.mp hbuild
  rw [hready, hconfines.eq_joined rfl rfl]

/-- **Two backends, one behind the other, are one backend** for every request that leaves room at the first:
it can be addressed to the one and then to the other, and this makes the same request of it. For joining
paths is associative, and so is joining queries, where a query that is absent or empty adds nothing. -/
theorem readdress_behind {address text : String} (hfirst : parse address = .ok first)
    (hrequest : Uri.parse text = .ok request.uri) (haddressable : first.Addressable)
    (haddressable' : second.Addressable) (hroom : first.HasRoom request.uri) :
    (∃ rewritten, (first.readdress request >>= second.readdress) = .ok rewritten ∧
      (first.behind second).readdress request = .ok rewritten) ∧
    (∀ p q r, joinPath (joinPath p q) r = joinPath p (joinPath q r)) ∧
    (∀ p q r, joinQuery (joinQuery p q) r = joinQuery p (joinQuery q r)) ∧
    ∀ unit ∈ [none, some ""], ∀ query,
      joinQuery unit query = query.filter (!·.isEmpty) ∧
        joinQuery query unit = query.filter (!·.isEmpty) := by
  have huri := Uri.plain_of_parse hrequest
  have hready := readdress_eq_joined (plain_of_parse hfirst) haddressable huri hroom
  obtain ⟨rewritten, hready'⟩ :
      ∃ rewritten, second.readdress { request with uri := first.joined request.uri } = .ok rewritten :=
    exists_readdress haddressable' (plain_joined haddressable huri)
  have hchain := Except.bind_eq_ok.mpr ⟨_, hready, hready'⟩
  refine ⟨⟨rewritten, hchain, ?_⟩, joinPath_assoc, joinQuery_assoc, ?_⟩
  · rw [← hready', readdress, readdress, addressFor_behind]
  · intro unit hunit
    apply joinQuery_unit
    revert unit
    decide

/-- Slashes at both ends of the paths that meet, and a query from each. -/
theorem readdress_behind_slashes :
    let first : Backend := ⟨.http, "a", "/one/", some "k=1"⟩
    let second : Backend := ⟨.https, "b", "/two//", some "m=2"⟩
    let request : Request := ⟨⟨.get, ⟨none, none, "/three", some "x"⟩, .http11, .empty⟩, .empty⟩
    parse "http://a/one/?k=1" = .ok first ∧ parse "https://b/two//?m=2" = .ok second ∧
      Uri.parse "/three?x" = .ok request.uri ∧
      ∃ rewritten, (first.readdress request >>= second.readdress) = .ok rewritten ∧
        rewritten.uri = ⟨some "https", some "b", "/two//one/three", some "m=2&k=1&x"⟩ := by
  intro first second request
  have hfirst : parse "http://a/one/?k=1" = .ok first := by rfl
  have hsecond : parse "https://b/two//?m=2" = .ok second := by rfl
  have hrequest : Uri.parse "/three?x" = .ok request.uri := by rfl
  have hauthority : Uri.IsAuthority "a" := ⟨by decide, by decide, by rfl⟩
  have hauthority' : Uri.IsAuthority "b" := ⟨by decide, by decide, by rfl⟩
  have haddressable : first.Addressable :=
    ⟨by decide, hauthority, List.all_eq_true.mp (by decide), fun _ hquery =>
      Option.some.inj hquery ▸ List.all_eq_true.mp (by decide)⟩
  have haddressable' : second.Addressable :=
    ⟨by decide, hauthority', List.all_eq_true.mp (by decide), fun _ hquery =>
      Option.some.inj hquery ▸ List.all_eq_true.mp (by decide)⟩
  obtain ⟨⟨rewritten, hready, hsingle⟩, -⟩ := readdress_behind hfirst hrequest haddressable
    haddressable' (by decide)
  have hjoined : (first.behind second).pathAndQuery request.uri = "/two//one/three?m=2&k=1&x" := by
    decide
  have hbuild : Uri.build "https" "b" "/two//one/three?m=2&k=1&x" = .ok
      ⟨some "https", some "b", "/two//one/three", some "m=2&k=1&x"⟩ := by rfl
  obtain ⟨-, uri, huri, rfl⟩ := readdress_eq_ok_iff.mp hsingle
  have hsame := (hjoined ▸ huri).symm.trans hbuild
  cases hsame
  exact ⟨hfirst, hsecond, hrequest, _, hready, rfl⟩

theorem Addressable.behind (haddressable : first.Addressable) (haddressable' : second.Addressable) :
    (first.behind second).Addressable where
  port := haddressable'.port
  authority := haddressable'.authority
  path := by
    rw [Backend.behind, toList_joinPath]
    exact (isPathChar_slashed_iff haddressable.path).mpr haddressable'.path
  query := by
    rw [Backend.behind, joinQuery_eq]
    exact (isQueryChar_ampersanded_iff haddressable.query).mpr haddressable'.query

/-- The path of an addressed request is cut where its length says, if it is marked, and is whole if it
is short. -/
theorem path_of_readdress {rewritten : Request} {path : List Char}
    (hready : b.readdress request = .ok rewritten) (haddressable : b.Addressable)
    (huri : request.uri.Plain) (hpath : slashed b.path request.uri.path = path) :
    (path.length < 65535 → rewritten.uri.path = Uri.rooted path) ∧
      (Uri.markPlace path ≠ 65535 → (ampersanded b.query request.uri.query).isSome →
        rewritten.uri.path = Uri.rooted (path.take (Uri.markPlace path))) := by
  obtain ⟨-, built, hbuild, rfl⟩ := readdress_eq_ok_iff.mp hready
  obtain ⟨-, read, behind, hread, rfl⟩ := Uri.build_eq_ok_iff.mp hbuild
  have hplain := (isPathChar_slashed_iff huri.path).mpr haddressable.path
  rw [toList_pathAndQuery_slashed, hpath] at hread
  rw [hpath] at hplain
  have htext := Uri.pathText_withQuery path (ampersanded b.query request.uri.query)
  rw [Uri.pathText_of_plain hplain] at htext
  constructor
  · intro hshort
    have hwhole := Uri.path_of_short (by rwa [htext]) hread
    rwa [htext] at hwhole
  · intro hplace hsome
    obtain ⟨query, hquery⟩ := Option.isSome_iff_exists.mp hsome
    rw [hquery] at hread htext
    have hmark : Uri.Marked (Uri.withQuery path (some query)) := by
      rw [Uri.Marked, htext, Uri.withQuery, List.drop_left]
      rfl
    have hcut := Uri.path_of_marked hmark (by rwa [htext]) hread
    rwa [htext] at hcut

/-- A request whose path has got into the query at the first backend, all but its first slash, is a
request for a slash to the second one. -/
theorem exists_readdress_of_wrapped {query : String} (haddressable : first.Addressable)
    (haddressable' : second.Addressable) (huri : request.uri.Plain)
    (hquery : ampersanded first.query request.uri.query = some query)
    (hplace : Uri.markPlace (slashed first.path request.uri.path) = 0)
    (hchars : ∀ c ∈ slashed first.path request.uri.path, Uri.isQueryChar c = true)
    (hshort : (slashed second.path "/").length < 65535) :
    ∃ rewritten, (first.readdress request >>= second.readdress) = .ok rewritten ∧
      rewritten.uri.path = Uri.rooted (slashed second.path "/") := by
  have hown := (isQueryChar_ampersanded_iff huri.query).mpr haddressable.query query hquery
  have hpath := (isPathChar_slashed_iff huri.path).mpr haddressable.path
  obtain ⟨uri, hready, hroot, hbehind⟩ : ∃ uri, first.readdress request = .ok { request with uri } ∧
      uri.path = "/" ∧ uri.query =
        some (String.ofList ((slashed first.path request.uri.path ++ '?' :: query.toList).drop 1)) :=
    ⟨_, readdress_of_wrapped haddressable.port haddressable.authority hquery hpath hplace hown, rfl, rfl⟩
  have hplain : uri.Plain := by
    constructor
    · rw [hroot]
      exact List.all_eq_true.mp (by decide)
    · intro _ heq c hc
      rw [hbehind] at heq
      cases heq
      rw [String.toList_ofList] at hc
      rcases List.mem_append.mp (List.mem_of_mem_drop hc) with hc | hc
      · exact hchars c hc
      · rcases List.mem_cons.mp hc with rfl | hc
        · decide
        · exact hown c hc
  obtain ⟨rewritten, hready'⟩ : ∃ rewritten, second.readdress { request with uri } = .ok rewritten :=
    exists_readdress haddressable' hplain
  refine ⟨rewritten, Except.bind_eq_ok.mpr ⟨_, hready, hready'⟩, ?_⟩
  rw [(path_of_readdress hready' haddressable' hplain rfl).1 (by rwa [hroot]), hroot]

/-- A request for 65532 slashes leaves no room at the first backend. The second one is asked for its own
path alone, with a slash behind it or without one. -/
theorem not_behind_slashes :
    let first : Backend := ⟨.http, "h", "/abc", some "fixed=1"⟩
    let second : Backend := ⟨.http, "i", "/x", none⟩
    let text := String.ofList (.replicate 65532 '/')
    let request : Request := ⟨⟨.get, ⟨none, none, text, none⟩, .http11, .empty⟩, .empty⟩
    parse "http://h/abc?fixed=1" = .ok first ∧ parse "http://i/x" = .ok second ∧
      Uri.parse text = .ok request.uri ∧ first.Addressable ∧ second.Addressable ∧
      ∃ rewritten single, (first.readdress request >>= second.readdress) = .ok rewritten ∧
        (first.behind second).readdress request = .ok single ∧
        rewritten.uri.path = "/x/" ∧ single.uri.path = "/x" := by
  intro first second text request
  have hhead : text.toList.head? = some '/' := by
    rw [String.toList_ofList, List.head?_replicate, if_neg (by decide)]
  have hslash : ∀ c ∈ text.toList, c = '/' := by
    intro c hc
    rw [String.toList_ofList] at hc
    exact List.eq_of_mem_replicate hc
  have htext : text.toList.length = 65532 := by
    rw [String.toList_ofList, List.length_replicate]
  -- From here on only these facts matter, and the text itself must not be computed.
  clear_value text
  have hplain : ∀ c ∈ text.toList, Uri.isPathChar c = true := by
    intro c hc
    rw [hslash c hc]
    decide
  have hrequest : Uri.parse text = .ok request.uri := Uri.parse_of_path hhead hplain (by omega)
  have huri := Uri.plain_of_parse hrequest
  have haddressable : first.Addressable := by
    refine ⟨by decide, ⟨by decide, by decide, ?_⟩, List.all_eq_true.mp (by decide), ?_⟩
    · exact (rfl : Uri.checkAuthority (Uri.authorityText "h".toList) = .ok ())
    · intro query hquery
      cases hquery
      exact List.all_eq_true.mp (by decide)
  have haddressable' : second.Addressable := by
    refine ⟨by decide, ⟨by decide, by decide, ?_⟩, List.all_eq_true.mp (by decide), ?_⟩
    · exact (rfl : Uri.checkAuthority (Uri.authorityText "i".toList) = .ok ())
    · intro query hquery
      cases hquery
  have hpath : slashed "/abc" text = "/abc".toList ++ text.toList := slashed_of_slash (by decide) hhead
  have hplace : Uri.markPlace (slashed "/abc" text) = 0 := by
    rw [Uri.markPlace, hpath, List.length_append, htext]
    rfl
  have hchars : ∀ c ∈ slashed "/abc" text, Uri.isQueryChar c = true := by
    intro c hc
    rw [hpath, List.mem_append] at hc
    rcases hc with hc | hc
    · exact List.all_eq_true.mp (by decide) c hc
    · rw [hslash c hc]
      decide
  have hfixed : ampersanded (some "fixed=1") none = some "fixed=1" := by decide
  obtain ⟨rewritten, hready, hroot⟩ := exists_readdress_of_wrapped haddressable haddressable' huri hfixed
    hplace hchars (by decide)
  -- The two paths together are two characters longer, and this is where the place is kept then.
  have hpath' : slashed "/x/abc" text = "/x/abc".toList ++ text.toList :=
    slashed_of_slash (by decide) hhead
  have hplace' : Uri.markPlace ("/x/abc".toList ++ text.toList) = 2 := by
    rw [Uri.markPlace, List.length_append, htext]
    rfl
  have hbehind : first.behind second = ⟨.http, "i", "/x/abc", some "fixed=1"⟩ := by decide
  have hjoint := haddressable.behind haddressable'
  rw [hbehind] at hjoint
  obtain ⟨single, hsingle⟩ := exists_readdress hjoint huri
  have hcut := (path_of_readdress hsingle hjoint huri hpath').2
  rw [hplace'] at hcut
  refine ⟨by rfl, by rfl, hrequest, haddressable, haddressable', rewritten, single, hready, ?_, ?_, ?_⟩
  · rwa [hbehind]
  · rw [hroot]
    decide
  · rw [hcut (by decide) rfl]
    rfl

end SigningProxy.Backend
