import SigningProxy.Proofs.Backend.Spelling
import SigningProxy.Proofs.Except
import SigningProxy.Proofs.Forward.Readdress
import SigningProxy.Proofs.Http.Parsed

/-!
# Requests stay with the backend

A readdressed request goes to the backend's scheme and authority, whatever the request names. Its path and
query are joined into one text, which is then read again. The reading finds the place of the join, because no
part can hold a mark that stands before it, as long as the path leaves room for that place. Behind a longer
path a query cuts the text somewhere else: the request can leave the backend's path, and the path can get
into the query.
-/

namespace SigningProxy.Backend

variable {b : Backend}

/-- There is no query, or the joined path leaves room for the place of one. -/
def HasRoom (b : Backend) (uri : Uri) : Prop :=
  ampersanded b.query uri.query = none ∨ (slashed b.path uri.path).length < 65535

instance (b : Backend) (uri : Uri) : Decidable (b.HasRoom uri) := inferInstanceAs (Decidable (_ ∨ _))

/-- The path and query of an address at the backend are those of the backend and of the request's
address, joined. -/
structure Confines (b : Backend) (uri built : Uri) : Prop where
  path : built.path.toList = slashed b.path uri.path
  query : built.query = ampersanded b.query uri.query

theorem toList_pathAndQuery_slashed (b : Backend) (uri : Uri) :
    (b.pathAndQuery uri).toList =
      Uri.withQuery (slashed b.path uri.path) (ampersanded b.query uri.query) := by
  rw [toList_pathAndQuery, toList_joinPath, joinQuery_eq]

theorem hasRoom_of_utf8ByteSize {uri : Uri} (hsize : (b.pathAndQuery uri).utf8ByteSize ≤ 65534) :
    b.HasRoom uri := by
  right
  have hlength := Uri.length_le_utf8ByteSize (b.pathAndQuery uri)
  rw [toList_pathAndQuery_slashed] at hlength
  have hpath : ∀ path query, path.length ≤ (Uri.withQuery path query).length := by
    intro path query
    cases query with
    | none => exact Nat.le_refl _
    | some query => exact (List.prefix_append _ _).length_le
  have hle := hpath (slashed b.path uri.path) (ampersanded b.query uri.query)
  omega

theorem readdress_eq_ok_iff {request rewritten : Request} :
    b.readdress request = .ok rewritten ↔ Authority.badPort? b.authority = none ∧
      ∃ uri, Uri.build b.scheme.text b.authority (b.pathAndQuery request.uri) = .ok uri ∧
        rewritten = { request with uri } := by
  rw [readdress, addressFor, checkPort]
  cases hport : Authority.badPort? b.authority with
  | some port =>
      constructor
      · intro hready
        cases hready
      · rintro ⟨hnone, -⟩
        cases hnone
  | none =>
      constructor
      · intro hready
        obtain ⟨uri, haddress, hready⟩ := Except.bind_eq_ok.mp hready
        cases hready
        exact ⟨rfl, uri, Except.mapError_eq_ok.mp haddress, rfl⟩
      · rintro ⟨-, uri, hbuild, rfl⟩
        exact Except.bind_eq_ok.mpr ⟨uri, Except.mapError_eq_ok.mpr hbuild, rfl⟩

theorem pathText_slashed {uri : Uri} (hb : b.Plain) (huri : uri.Plain) :
    Uri.pathText (slashed b.path uri.path) = slashed b.path uri.path := by
  apply Uri.pathText_of_no_marks
  intro c hc
  rcases mem_slashed hc with hc | rfl | hc
  · exact hb.path c hc
  · decide
  · exact Uri.ne_marks_of_isPathChar (huri.path c hc)

theorem hash_notMem_ampersanded {uri : Uri} (hb : b.Plain) (huri : uri.Plain) :
    ∀ q, ampersanded b.query uri.query = some q → '#' ∉ q.toList := by
  intro q hq
  exact not_mem_ampersanded (by decide) hb.query
    (fun own hown => Uri.hash_notMem_of_query (huri.query own hown)) hq

/-- **Plain parts are found again exactly if there is room.** -/
theorem confines_iff_hasRoom {uri built : Uri} {scheme authority : String} (hb : b.Plain)
    (huri : uri.Plain) (hbuild : Uri.build scheme authority (b.pathAndQuery uri) = .ok built) :
    b.Confines uri built ↔ b.HasRoom uri := by
  obtain ⟨-, path, query, hread, rfl⟩ := Uri.build_eq_ok_iff.mp hbuild
  rw [toList_pathAndQuery_slashed] at hread
  have hne : slashed b.path uri.path ≠ [] := by
    intro hnil
    have hhead := head?_slashed uri.path hb.rooted
    rw [hnil] at hhead
    cases hhead
  have hiff := Uri.read_withQuery_iff hne (pathText_slashed hb huri)
    (hash_notMem_ampersanded hb huri) hread
  exact ⟨fun h => hiff.mp ⟨h.path, h.query⟩, fun h => ⟨(hiff.mpr h).1, (hiff.mpr h).2⟩⟩

/-- **A readdressed request stays with the backend.** It is the request with another address, at the
backend's scheme and authority. The path and query are the joined ones, which begin with a slash and all of
the backend's path, exactly if there is room; and in a text that is no longer than that of an address there
always is. -/
theorem readdress_confines {address text : String} {request rewritten : Request}
    (hbackend : parse address = .ok b) (hrequest : Uri.parse text = .ok request.uri)
    (hready : b.readdress request = .ok rewritten) :
    rewritten = { request with uri := rewritten.uri } ∧
      rewritten.uri.scheme = some b.scheme.text ∧ rewritten.uri.authority = some b.authority ∧
      (b.Confines request.uri rewritten.uri ↔ b.HasRoom request.uri) ∧
      (b.HasRoom request.uri → rewritten.uri.path.toList.head? = some '/' ∧
        b.path.toList <+: rewritten.uri.path.toList) ∧
      ((b.pathAndQuery request.uri).utf8ByteSize ≤ 65534 → b.HasRoom request.uri) := by
  have hb := plain_of_parse hbackend
  obtain ⟨-, uri, hbuild, rfl⟩ := readdress_eq_ok_iff.mp hready
  have hiff := confines_iff_hasRoom hb (Uri.plain_of_parse hrequest) hbuild
  obtain ⟨-, path, query, -, rfl⟩ := Uri.build_eq_ok_iff.mp hbuild
  refine ⟨rfl, rfl, rfl, hiff, ?_, hasRoom_of_utf8ByteSize⟩
  intro hroom
  have hpath := (hiff.mpr hroom).path
  rw [hpath]
  exact ⟨head?_slashed _ hb.rooted, prefix_slashed _ _⟩

/-- A backend with a prefix and a query, asked for a path with another query. -/
theorem readdress_confines_prefixed :
    let b : Backend := ⟨.http, "h", "/abc/", some "fixed=1"⟩
    let request : Request :=
      ⟨⟨.get, ⟨some "https", some "other", "/x", some "y?z"⟩, .http11, .empty⟩, .empty⟩
    parse " http://h/abc/?fixed=1#end" = .ok b ∧ Uri.parse "https://other/x?y?z" = .ok request.uri ∧
      ∃ rewritten, b.readdress request = .ok rewritten ∧ rewritten.uri.authority = some "h" ∧
        rewritten.uri.path.toList = "/abc/x".toList ∧ rewritten.uri.query = some "fixed=1&y?z" := by
  intro b request
  have hbackend : parse " http://h/abc/?fixed=1#end" = .ok b := by rfl
  have hrequest : Uri.parse "https://other/x?y?z" = .ok request.uri := by rfl
  have hjoined : b.pathAndQuery request.uri = "/abc/x?fixed=1&y?z" := by decide
  have hbuild : Uri.build "http" "h" "/abc/x?fixed=1&y?z" = .ok
      ⟨some "http", some "h", "/abc/x", some "fixed=1&y?z"⟩ := by rfl
  have hready := readdress_eq_ok_iff.mpr
    (⟨by decide, _, hjoined ▸ hbuild, rfl⟩ : Authority.badPort? b.authority = none ∧ _)
  obtain ⟨-, -, hauthority, hiff, -, -⟩ := readdress_confines hbackend hrequest hready
  obtain ⟨hpath, hquery⟩ := hiff.mpr (by decide)
  exact ⟨hbackend, hrequest, _, hready, hauthority, hpath.trans (by decide), hquery.trans (by decide)⟩

/-- A path whose length makes the place of the query that of its first slash gets into the query, all
but this slash. -/
theorem readdress_of_wrapped {request : Request} {query : String}
    (hport : Authority.badPort? b.authority = none) (hauthority : Uri.IsAuthority b.authority)
    (hquery : ampersanded b.query request.uri.query = some query)
    (hplain : ∀ c ∈ slashed b.path request.uri.path, Uri.isPathChar c = true)
    (hplace : Uri.markPlace (slashed b.path request.uri.path) = 0)
    (hchars : ∀ c ∈ query.toList, Uri.isQueryChar c = true) :
    b.readdress request = .ok { request with uri := ⟨some b.scheme.text, some b.authority, "/",
      some (String.ofList ((slashed b.path request.uri.path ++ '?' :: query.toList).drop 1))⟩ } := by
  have hwhole := Uri.takeWhile_of_no_hash (Uri.hash_notMem_of_query hchars)
  have hread : Uri.pathAndQuery (b.pathAndQuery request.uri).toList = .ok ("/",
      some (String.ofList ((slashed b.path request.uri.path ++ '?' :: query.toList).drop 1))) := by
    rw [toList_pathAndQuery_slashed, hquery, Uri.withQuery, Uri.pathAndQuery_marked hplain, hplace,
      hwhole, if_neg (by decide), if_neg (by simpa using hchars)]
    rfl
  exact readdress_eq_ok_iff.mpr
    ⟨hport, _, Uri.build_eq_ok_iff.mpr ⟨hauthority, _, _, hread, rfl⟩, rfl⟩

/-- A request for 65532 slashes loses the backend's path, which gets into the query. -/
theorem not_confines_slashes :
    let b : Backend := ⟨.http, "h", "/abc", some "fixed=1"⟩
    let text := String.ofList (.replicate 65532 '/')
    let request : Request := ⟨⟨.get, ⟨none, none, text, none⟩, .http11, .empty⟩, .empty⟩
    parse "http://h/abc?fixed=1" = .ok b ∧ Uri.parse text = .ok request.uri ∧
      ∃ rewritten, b.readdress request = .ok rewritten ∧ rewritten.uri.path = "/" ∧
        rewritten.uri.query =
          some (String.ofList ((slashed "/abc" text ++ "?fixed=1".toList).drop 1)) ∧
        ¬ b.Confines request.uri rewritten.uri := by
  intro b text request
  have hhead : text.toList.head? = some '/' := by
    rw [String.toList_ofList, List.head?_replicate, if_neg (by decide)]
  have hplain : ∀ c ∈ text.toList, Uri.isPathChar c = true := by
    intro c hc
    rw [String.toList_ofList] at hc
    rw [List.eq_of_mem_replicate hc]
    decide
  have htext : text.toList.length = 65532 := by
    rw [String.toList_ofList, List.length_replicate]
  -- From here on only these facts matter, and the text itself must not be computed.
  clear_value text
  have hlength : (slashed "/abc" text).length = 65536 := by
    obtain ⟨rest, hrest⟩ := List.head?_eq_some_iff.mp hhead
    have hjoined : slashed "/abc" text = "/abc".toList ++ text.toList := by
      rw [slashed, hrest]
      rfl
    rw [hjoined, List.length_append, htext]
    rfl
  have hprefixed : ∀ c ∈ "/abc".toList, Uri.isPathChar c = true := List.all_eq_true.mp (by decide)
  have hjoined : ∀ c ∈ slashed "/abc" text, Uri.isPathChar c = true := by
    intro c hc
    rcases mem_slashed hc with hown | rfl | hc
    · exact hprefixed c hown
    · decide
    · exact hplain c hc
  have hplace : Uri.markPlace (slashed "/abc" text) = 0 := by
    rw [Uri.markPlace, hlength]
  have hport : Authority.badPort? "h" = none := by decide
  have hauthority : Uri.IsAuthority "h" := ⟨by decide, by decide, by rfl⟩
  have hquery : ampersanded (some "fixed=1") none = some "fixed=1" := by decide
  have hready : b.readdress request = .ok _ :=
    readdress_of_wrapped hport hauthority hquery hjoined hplace (List.all_eq_true.mp (by decide))
  refine ⟨by rfl, Uri.parse_of_path hhead hplain (by omega), _, hready, rfl, rfl, ?_⟩
  intro hconfines
  have hpath : "/".toList = slashed "/abc" text := hconfines.path
  rw [← hpath] at hlength
  exact absurd hlength (by decide)

end SigningProxy.Backend
