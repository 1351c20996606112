import SigningProxy.Proofs.Forward.Confinement
import SigningProxy.Proofs.Network.Transport

/-!
# Requests cannot spoil their own address

Whether a request can be addressed to the backend is settled by the backend. Its port and its authority are the
backend's. Its path and query are joined from two parts each, and a joined text can be read exactly if both
parts can; the request's own parts always can, because they have been read before. So one request is refused
exactly if every other is, and for the same cause.

The address is built with the very authority whose port has been found good. When the request is sent, the
port is looked at once more, and found good again.
-/

namespace SigningProxy

theorem isPathChar_slashed_iff {first second : String}
    (hsecond : ∀ c ∈ second.toList, Uri.isPathChar c = true) :
    (∀ c ∈ slashed first second, Uri.isPathChar c = true) ↔
      ∀ c ∈ first.toList, Uri.isPathChar c = true := by
  constructor
  · intro hall c hc
    exact hall c ((prefix_slashed first second).mem hc)
  · intro hfirst c hc
    rcases mem_slashed hc with hc | rfl | hc
    · exact hfirst c hc
    · decide
    · exact hsecond c hc

theorem isQueryChar_ampersanded_iff {first second : Option String}
    (hsecond : ∀ q, second = some q → ∀ c ∈ q.toList, Uri.isQueryChar c = true) :
    (∀ q, ampersanded first second = some q → ∀ c ∈ q.toList, Uri.isQueryChar c = true) ↔
      ∀ q, first = some q → ∀ c ∈ q.toList, Uri.isQueryChar c = true := by
  constructor
  · rintro hall q rfl c hc
    have hne : q ≠ "" := by
      rintro rfl
      cases hc
    obtain ⟨query, hquery, hstarts⟩ := prefix_ampersanded second hne
    exact hall query hquery c (hstarts.mem hc)
  · intro hfirst query hquery c hc
    rcases mem_ampersanded hquery hc with ⟨q, hq, hc⟩ | rfl | ⟨q, hq, hc⟩
    · exact hfirst q hq c hc
    · decide
    · exact hsecond q hq c hc

namespace Backend

variable {b : Backend} {uri : Uri}

/-- Each part of the backend can stand in the address of a request. -/
structure Addressable (b : Backend) : Prop where
  port : Authority.badPort? b.authority = none
  authority : Uri.IsAuthority b.authority
  path : ∀ c ∈ b.path.toList, Uri.isPathChar c = true
  query : ∀ q, b.query = some q → ∀ c ∈ q.toList, Uri.isQueryChar c = true

/-- The joined text can be read exactly if the backend's path and query can. -/
theorem exists_read_pathAndQuery_iff (hb : b.Plain) (huri : uri.Plain) (hroom : b.HasRoom uri) :
    (∃ read, Uri.pathAndQuery (b.pathAndQuery uri).toList = .ok read) ↔
      (∀ c ∈ b.path.toList, Uri.isPathChar c = true) ∧
        ∀ q, b.query = some q → ∀ c ∈ q.toList, Uri.isQueryChar c = true := by
  rw [toList_pathAndQuery_slashed, Uri.exists_read_iff (pathText_slashed hb huri)
    (hash_notMem_ampersanded hb huri) hroom, isPathChar_slashed_iff huri.path,
    isQueryChar_ampersanded_iff huri.query]

theorem exists_addressFor (hb : b.Plain) (haddressable : b.Addressable) (huri : uri.Plain)
    (hroom : b.HasRoom uri) : ∃ path query,
      b.addressFor uri = .ok ⟨some b.scheme.text, some b.authority, path, query⟩ := by
  obtain ⟨⟨path, query⟩, hread⟩ :=
    (exists_read_pathAndQuery_iff hb huri hroom).mpr ⟨haddressable.path, haddressable.query⟩
  refine ⟨path, query, ?_⟩
  rw [addressFor, checkPort, haddressable.port, Uri.build_of_isAuthority haddressable.authority, hread]
  rfl

/-- **One cause for all requests.** -/
theorem exists_refusal (hb : b.Plain) (haddressable : ¬ b.Addressable) :
    ∃ cause, ∀ uri : Uri, uri.Plain → b.HasRoom uri → b.addressFor uri = .error cause := by
  simp only [addressFor, checkPort]
  cases hport : Authority.badPort? b.authority with
  | some port => exact ⟨_, fun _ _ _ => rfl⟩
  | none =>
      by_cases hauthority : Uri.IsAuthority b.authority
      · refine ⟨.invalidRequest .invalidCharacter, ?_⟩
        intro uri huri hroom
        rw [Uri.build_of_isAuthority hauthority]
        cases hread : Uri.pathAndQuery (b.pathAndQuery uri).toList with
        | ok read =>
            obtain ⟨hpath, hquery⟩ := (exists_read_pathAndQuery_iff hb huri hroom).mp ⟨read, hread⟩
            exact absurd ⟨hport, hauthority, hpath, hquery⟩ haddressable
        | error cause =>
            rw [Uri.eq_invalidCharacter_of_error hread]
            rfl
      · obtain ⟨cause, hfault⟩ := Uri.exists_fault hauthority
        refine ⟨.invalidRequest cause, ?_⟩
        intro uri _ _
        rw [hfault]
        rfl

/-- **A request is addressed exactly if every other one is.** -/
theorem readdress_decided {address text text' : String} {request other : Request}
    (hbackend : parse address = .ok b) (hrequest : Uri.parse text = .ok request.uri)
    (hother : Uri.parse text' = .ok other.uri)
    (hsize : (b.pathAndQuery request.uri).utf8ByteSize ≤ 65534)
    (hsize' : (b.pathAndQuery other.uri).utf8ByteSize ≤ 65534) :
    ((∃ rewritten, b.readdress request = .ok rewritten) ↔ b.Addressable) ∧
    (∀ cause, b.readdress request = .error cause ↔ b.readdress other = .error cause) ∧
    ∀ rewritten, b.readdress request = .ok rewritten →
      rewritten.uri.authority.elim (.ok ()) checkPort = .ok () ∧
        ∀ (n : Network) (host : Host) (sent : Request), sent.uri = rewritten.uri →
          (n.carrier host sent ()).1.SparesPort := by
  have hb := plain_of_parse hbackend
  have hroom := hasRoom_of_utf8ByteSize hsize
  have hroom' := hasRoom_of_utf8ByteSize hsize'
  have huri := Uri.plain_of_parse hrequest
  have huri' := Uri.plain_of_parse hother
  by_cases haddressable : b.Addressable
  · obtain ⟨path, query, hbuilt⟩ := exists_addressFor hb haddressable huri hroom
    obtain ⟨path', query', hbuilt'⟩ := exists_addressFor hb haddressable huri' hroom'
    have hchecked : (some b.authority).elim (.ok ()) checkPort = .ok () := by
      rw [Option.elim_some, checkPort, haddressable.port]
    rw [readdress, hbuilt, readdress, hbuilt']
    refine ⟨iff_of_true ⟨_, rfl⟩ haddressable, ?_, ?_⟩
    · intro cause
      constructor
      · intro hrefused
        cases hrefused
      · intro hrefused
        cases hrefused
    · intro rewritten hready
      cases hready
      refine ⟨hchecked, ?_⟩
      intro n host sent hsent
      apply Network.sparesPort_carrier
      rw [hsent]
      exact hchecked
  · obtain ⟨cause, hrefused⟩ := exists_refusal hb haddressable
    rw [readdress, hrefused _ huri hroom, readdress, hrefused _ huri' hroom']
    refine ⟨iff_of_false ?_ haddressable, fun _ => Iff.rfl, ?_⟩
    · rintro ⟨rewritten, hready⟩
      cases hready
    · intro rewritten hready
      cases hready

/-- A blank in the backend's query is refused for `*` and for a bare authority alike. -/
theorem readdress_decided_blank :
    let b : Backend := ⟨.http, "h", "/a", some "b c"⟩
    let request : Request := ⟨⟨.get, ⟨none, none, "*", none⟩, .http11, .empty⟩, .empty⟩
    let other : Request := ⟨⟨.connect, ⟨none, some "x:1", "", none⟩, .http11, .empty⟩, .empty⟩
    parse "http://h/a?b c" = .ok b ∧ Uri.parse "*" = .ok request.uri ∧
      Uri.parse "x:1" = .ok other.uri ∧
      b.readdress request = .error (.invalidRequest .invalidCharacter) ∧
      b.readdress other = .error (.invalidRequest .invalidCharacter) := by
  intro b request other
  have hbackend : parse "http://h/a?b c" = .ok b := by rfl
  have hrequest : Uri.parse "*" = .ok request.uri := by rfl
  have hother : Uri.parse "x:1" = .ok other.uri := by rfl
  have hjoined : b.pathAndQuery request.uri = "/a/*?b c" := by decide
  have hjoined' : b.pathAndQuery other.uri = "/a/?b c" := by decide
  have hport : Authority.badPort? "h" = none := by decide
  have hbuild : Uri.build "http" "h" "/a/*?b c" = .error .invalidCharacter := by rfl
  have hrefused : b.readdress request = .error (.invalidRequest .invalidCharacter) := by
    have hbuilt : Uri.build b.scheme.text b.authority "/a/*?b c" = .error .invalidCharacter := hbuild
    rw [readdress, addressFor, checkPort, hport, hjoined, hbuilt]
    rfl
  obtain ⟨-, hsame, -⟩ := readdress_decided hbackend hrequest hother (by rw [hjoined]; decide)
    (by rw [hjoined']; decide)
  exact ⟨hbackend, hrequest, hother, hrefused, (hsame _).mp hrefused⟩

end Backend

end SigningProxy
