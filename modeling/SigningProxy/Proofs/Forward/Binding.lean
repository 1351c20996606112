import SigningProxy.Proofs.Forward.Frame
import SigningProxy.Proofs.Forward.Readdress

/-!
# What the signature is bound to

Signing comes last, so nothing that the client sends under the token's name reaches the backend: not
when it sends many values, and not when it names the field in `connection`. The token that does reach
it is the one for the method and the path of the very request that it comes with.

The query is no part of the token. It still has a way into it, because a path that leaves no room for
the place of its query is taken together with the query.
-/

namespace SigningProxy

variable {σ τ : Type}

namespace Gateway

/-- The claims that a signature of a request vouches for. -/
def claimsOf (issuer : String) (now : Int64) (seen : Request) : Claims :=
  ⟨issuer, now.toNatClampNeg, seen.method.text, seen.uri.path⟩

/-- A request that comes out of the stages has one token, and it is the one for this request. -/
theorem values_field_of_prepares {g : Gateway} {issuer : String} {files : FileTree} {now : Int64}
    {client : Option IpAddress} {request seen : Request} {store : KeyStore}
    (hprepares : g.Prepares (Token.signer issuer) files now client request store seen) :
    ∃ key, (store.value files).result = .ok key ∧
      seen.headers.values Token.field = [Token.value (claimsOf issuer now seen) key] := by
  obtain @⟨uri, key, signature, -, hkey, hsign⟩ := hprepares
  rw [Token.signer_sign] at hsign
  cases hsign
  refine ⟨key, hkey, ?_⟩
  exact (Headers.values_insert _ _ _ _).trans (if_pos rfl)

theorem path_of_prepares {g : Gateway} {signer : Signer} {files : FileTree} {now : Int64}
    {client : Option IpAddress} {request seen : Request} {store : KeyStore}
    (hprepares : g.Prepares signer files now client request store seen) :
    seen.method = request.method ∧ g.Addressed request seen.uri := by
  obtain ⟨huri, -, -⟩ := hprepares
  exact ⟨rfl, huri⟩

/-- **The token is bound to the request that it comes with.** The backend gets one value of the token's
field, whatever the client sent; it is accepted under the loaded key, and it says who issued it and
when, and the method and the path that the backend is asked for. Another request for the same path gets
the same value under the same key at the same time, where its path is settled without the queries. -/
theorem token_of_mem_calls {g : Gateway} {issuer : String} {files files' : FileTree} {now : Int64}
    {inner : Carrier σ} {inner' : Carrier τ} {client client' : Option IpAddress}
    {request request' seen seen' : Request} {store store' : KeyStore} {memory : σ} {memory' : τ}
    (hseen : seen ∈
      (g.serve (Token.signer issuer) files now inner client request store memory).calls) :
    (∃ key value,
      (g.serve (Token.signer issuer) files now inner client request store memory).store.key
        = some key ∧
      seen.headers.values Token.field = [value] ∧
      value.bytes = Token.issue (claimsOf issuer now seen) key ∧
      Token.verify value.bytes key = .ok (claimsOf issuer now seen)) ∧
    (seen' ∈ (g.serve (Token.signer issuer) files' now inner' client' request' store' memory').calls →
      (store'.value files').result = (store.value files).result →
      request'.method = request.method → request'.uri.path = request.uri.path →
      g.backend.PathSettled request'.uri request.uri →
      seen'.headers.values Token.field = seen.headers.values Token.field) := by
  have hprepares := (mem_calls_serve inner memory).mp hseen
  obtain ⟨key, hkey, hvalues⟩ := values_field_of_prepares hprepares
  obtain ⟨hmethod, -, hbuild⟩ := path_of_prepares hprepares
  constructor
  · refine ⟨key, _, ?_, hvalues, rfl, ?_⟩
    · rw [(relays_of_prepares hprepares).store]
      exact KeyStore.key_of_value hkey
    · exact Token.verify_issue (Token.issuedAt_claims_lt issuer seen.toRequestHead now) key
  · intro hseen' hresult hmethod' hpath hsettled
    have hprepares' := (mem_calls_serve inner' memory').mp hseen'
    obtain ⟨key', hkey', hvalues'⟩ := values_field_of_prepares hprepares'
    obtain ⟨hsame, -, hbuild'⟩ := path_of_prepares hprepares'
    rw [hresult, hkey] at hkey'
    cases hkey'
    have hclaims : claimsOf issuer now seen' = claimsOf issuer now seen := by
      rw [claimsOf, claimsOf, hmethod, hsame, hmethod',
        Backend.path_eq_of_settled hpath hsettled hbuild' hbuild]
    rw [hvalues, hvalues', hclaims]

/-- Two requests for one path with different queries, the first with forged tokens and a nomination of
their field, get the same token. -/
theorem token_of_forged :
    let backend : Backend := ⟨.http, "h", "/api", none⟩
    let headers : Headers :=
      ⟨[(.connection, ⟨Utf8.encode "authpx-api-request", by decide⟩),
        (Token.field, ⟨Utf8.encode "forged", by decide⟩),
        (Token.field, ⟨Utf8.encode "again", by decide⟩)]⟩
    let first : Request := ⟨⟨.get, ⟨none, none, "/x", some "a"⟩, .http11, headers⟩, .empty⟩
    let second : Request := ⟨⟨.get, ⟨none, none, "/x", some "b"⟩, .http11, .empty⟩, .empty⟩
    let key : Key := ⟨.replicate keyLength 0, rfl⟩
    let inner : Carrier Unit := fun _ _ => (.done (.ok (.ofText .ok "")), ())
    let calls (request : Request) := ((new backend "").1.serve (Token.signer "i") .empty (-5) inner
      none request ⟨"secret", some key⟩ ()).calls
    ∃ seen ∈ calls first, ∃ seen' ∈ calls second, ∃ value,
      seen.headers.values Token.field = [value] ∧ seen'.headers.values Token.field = [value] ∧
        Token.verify value.bytes key = .ok ⟨"i", 0, "GET", "/api/x"⟩ := by
  intro backend headers first second key inner calls
  have hpath : backend.pathAndQuery first.uri = "/api/x?a" := by decide
  have hpath' : backend.pathAndQuery second.uri = "/api/x?b" := by decide
  have hbuild : Uri.build "http" "h" "/api/x?a"
      = .ok ⟨some "http", some "h", "/api/x", some "a"⟩ := by rfl
  have hbuild' : Uri.build "http" "h" "/api/x?b"
      = .ok ⟨some "http", some "h", "/api/x", some "b"⟩ := by rfl
  have haddressed : (new backend "").1.Addressed first
      ⟨some "http", some "h", "/api/x", some "a"⟩ := by
    rw [Addressed, backend_new, hpath]
    exact ⟨by decide, hbuild⟩
  have haddressed' : (new backend "").1.Addressed second
      ⟨some "http", some "h", "/api/x", some "b"⟩ := by
    rw [Addressed, backend_new, hpath']
    exact ⟨by decide, hbuild'⟩
  obtain ⟨seen, hseen, huri⟩ : ∃ seen ∈ calls first, seen.uri = _ :=
    exists_mem_calls inner () haddressed rfl
  obtain ⟨seen', hseen', -⟩ : ∃ seen ∈ calls second, seen.uri = _ :=
    exists_mem_calls inner () haddressed' rfl
  obtain ⟨⟨stored, value, hstored, hvalue, -, hverify⟩, hsame⟩ := token_of_mem_calls hseen
  have hsettled : (new backend "").1.backend.PathSettled second.uri first.uri := by
    rw [backend_new]
    exact Or.inr (Or.inl (by decide))
  refine ⟨seen, hseen, seen', hseen', value, hvalue, ?_, ?_⟩
  · rw [hsame hseen' rfl rfl rfl hsettled, hvalue]
  · have hprepares := (mem_calls_serve inner ()).mp hseen
    rw [(relays_of_prepares hprepares).store] at hstored
    have hkey : key = stored := Option.some.inj hstored
    have hclaims : claimsOf "i" (-5) seen = ⟨"i", 0, "GET", "/api/x"⟩ := by
      rw [claimsOf, huri, (path_of_prepares hprepares).1]
      rfl
    rw [hkey, hverify, hclaims]

/-- **The query gets into the token** where the path at the backend is plain and leaves no room for the
place of a query: the request with a query and the one without get different tokens. -/
theorem values_field_ne_of_lost {g : Gateway} {issuer : String} {files : FileTree} {now : Int64}
    {client : Option IpAddress} {request request' seen seen' : Request} {store : KeyStore}
    (hprepares : g.Prepares (Token.signer issuer) files now client request store seen)
    (hprepares' : g.Prepares (Token.signer issuer) files now client request' store seen')
    (hpath : request'.uri.path = request.uri.path) {query : String}
    (hnone : joinQuery g.backend.query request.uri.query = none)
    (hsome : joinQuery g.backend.query request'.uri.query = some query)
    (hplain : ∀ c ∈ (joinPath g.backend.path request.uri.path).toList, Uri.isPathChar c = true)
    (hplace : Uri.markPlace (joinPath g.backend.path request.uri.path).toList = 65535) :
    seen'.headers.values Token.field ≠ seen.headers.values Token.field := by
  obtain ⟨key, hkey, hvalues⟩ := values_field_of_prepares hprepares
  obtain ⟨key', hkey', hvalues'⟩ := values_field_of_prepares hprepares'
  rw [hkey] at hkey'
  cases hkey'
  intro hsame
  -- The same token would say the same path.
  rw [hvalues, hvalues', List.singleton_inj] at hsame
  have hclaims := Token.issue_injective (Token.issuedAt_claims_lt issuer seen'.toRequestHead now)
    (Token.issuedAt_claims_lt issuer seen.toRequestHead now) (congrArg FieldValue.bytes hsame)
  have hpaths : seen'.uri.path = seen.uri.path := congrArg Claims.path hclaims
  obtain ⟨-, -, hbuild⟩ := path_of_prepares hprepares
  obtain ⟨-, -, hbuild'⟩ := path_of_prepares hprepares'
  obtain ⟨-, plain, behind, hread, huri⟩ := Uri.build_eq_ok_iff.mp hbuild
  obtain ⟨-, taken, behind', hread', huri'⟩ := Uri.build_eq_ok_iff.mp hbuild'
  rw [Backend.toList_pathAndQuery, hnone, Uri.pathAndQuery_of_lost hplain hplace] at hread
  rw [Backend.toList_pathAndQuery, hpath, hsome, Uri.pathAndQuery_of_lost hplain hplace] at hread'
  cases hread
  cases hread'
  rw [huri, huri'] at hpaths
  -- But one of the paths is longer.
  generalize (joinPath g.backend.path request.uri.path).toList = path at hplace hpaths
  have hne : path ≠ [] := by
    rintro rfl
    cases hplace
  have hlengths := congrArg (fun s => s.toList.length) hpaths
  simp [Uri.rooted, Uri.withQuery, hne] at hlengths

/-- The backend's path is 65535 slashes long, and only one of the requests has a query. -/
theorem token_of_slashes :
    let backend : Backend := ⟨.http, "h", String.ofList (.replicate 65535 '/'), none⟩
    let request (query : Option String) : Request :=
      ⟨⟨.get, ⟨none, none, "/", query⟩, .http11, .empty⟩, .empty⟩
    let store : KeyStore := ⟨"secret", some ⟨.replicate keyLength 0, rfl⟩⟩
    let inner : Carrier Unit := fun _ _ => (.done (.ok (.ofText .ok "")), ())
    let calls (query : Option String) := ((new backend "").1.serve (Token.signer "i") .empty 0 inner
      none (request query) store ()).calls
    ∃ seen ∈ calls none, ∃ seen' ∈ calls (some "q"),
      seen'.headers.values Token.field ≠ seen.headers.values Token.field := by
  intro backend request store inner calls
  have hpath : joinPath backend.path "/" = backend.path := by
    apply joinPath_root
    rw [String.toList_ofList, List.getLast?_replicate, if_neg (by decide)]
  have hlist : (joinPath (new backend "").1.backend.path "/").toList = .replicate 65535 '/' := by
    rw [backend_new, hpath, String.toList_ofList]
  have hplain : ∀ c ∈ (joinPath (new backend "").1.backend.path "/").toList,
      Uri.isPathChar c = true := by
    intro c hc
    rw [hlist] at hc
    rw [List.eq_of_mem_replicate hc]
    decide
  have hplace : Uri.markPlace (joinPath (new backend "").1.backend.path "/").toList = 65535 := by
    rw [hlist, Uri.markPlace, List.length_replicate]
  have hport : Authority.badPort? (new backend "").1.backend.authority = none := by
    rw [backend_new]
    decide
  have hauthority : Uri.IsAuthority (new backend "").1.backend.authority := by
    have hhost : Uri.IsAuthority "h" := ⟨by decide, by decide, by rfl⟩
    rw [backend_new]
    exact hhost
  have haddressed : ∀ query, ∃ uri, (new backend "").1.Addressed (request query) uri := by
    intro query
    have htext := Backend.toList_pathAndQuery (new backend "").1.backend (request query).uri
    have hread := (congrArg Uri.pathAndQuery htext).trans
      (Uri.pathAndQuery_of_lost hplain hplace _)
    exact ⟨_, hport, Uri.build_eq_ok_iff.mpr ⟨hauthority, _, _, hread, rfl⟩⟩
  obtain ⟨uri, huri⟩ := haddressed none
  obtain ⟨uri', huri'⟩ := haddressed (some "q")
  obtain ⟨seen, hseen, -⟩ : ∃ seen ∈ calls none, seen.uri = uri := exists_mem_calls inner () huri rfl
  obtain ⟨seen', hseen', -⟩ : ∃ seen ∈ calls (some "q"), seen.uri = uri' :=
    exists_mem_calls inner () huri' rfl
  refine ⟨seen, hseen, seen', hseen', ?_⟩
  exact values_field_ne_of_lost ((mem_calls_serve inner ()).mp hseen)
    ((mem_calls_serve inner ()).mp hseen') rfl (by rw [backend_new]; rfl) (by rw [backend_new]; rfl)
    hplain hplace

end Gateway

end SigningProxy
