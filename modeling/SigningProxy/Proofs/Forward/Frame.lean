import SigningProxy.Proofs.Forward.Outcome
import SigningProxy.Proofs.Key.Store
import SigningProxy.Proofs.Token.Verify

/-!
# What the backend gets

The header of a request is changed four times on its way: the fields of its hop are removed, the
client's address is added, and the version and the signature are put in. `Headers.outboundValues` says
name by name what stands in the header before it is signed. The rules are tried in the reverse of the
order of the changes, since a later change overrides an earlier one.
-/

namespace SigningProxy

variable {σ : Type}

/-- The values under a name before a request is signed, with the version and the chain of addresses
that are set, if any. The first rule that applies counts. -/
def Headers.outboundValues (h : Headers) (version chain : Option FieldValue) (name : FieldName) :
    List FieldValue :=
  if name = .proxyVersion ∧ version.isSome then version.toList
  else if name = .forwardedFor ∧ chain.isSome then chain.toList
  else if name ∈ h.hopNames then []
  else h.values name

namespace Gateway

/-- The version that is announced: it is the value of a field, and not empty. -/
def announcement (version : String) : Option FieldValue :=
  (FieldValue.ofString? version).filter fun value => !value.bytes.isEmpty

theorem backend_new (backend : Backend) (version : String) :
    (new backend version).1.backend = backend := by
  rw [new]
  cases FieldValue.ofString? version <;> rfl

theorem announced_new (backend : Backend) (version : String) :
    (new backend version).1.announced = announcement version := by
  rw [new, announcement]
  cases FieldValue.ofString? version with
  | none => rfl
  | some value =>
      rw [Option.filter_some]
      change (if value.bytes.isEmpty = true then none else some value) = _
      cases value.bytes.isEmpty with
      | true => rfl
      | false => rfl

theorem values_outboundHeaders (g : Gateway) (client : Option IpAddress) (headers : Headers)
    (name : FieldName) :
    (g.outboundHeaders client headers).values name =
      headers.outboundValues g.announced (client.map headers.stripHops.chainValue) name := by
  simp only [outboundHeaders, Headers.outboundValues]
  cases client with
  | none =>
      cases g.announced with
      | none => simp
      | some version => simp
  | some ip =>
      cases g.announced with
      | none => simp [Headers.appendForwarded_eq]
      | some version => simp [Headers.appendForwarded_eq]

/-- **What the backend gets, name by name.** Method and body are the client's. The signer's field has
one value, which is made for this very request; every other name has the values that
`Headers.outboundValues` gives it. -/
theorem framed_of_mem_calls {backend : Backend} {version : String} {signer : Signer}
    {files : FileTree} {now : Int64} {inner : Carrier σ} {client : Option IpAddress}
    {request seen : Request} {store : KeyStore} {memory : σ}
    (hseen : seen ∈ ((new backend version).1.serve signer files now inner client request store
      memory).calls) :
    seen.method = request.method ∧ seen.body = request.body ∧ seen.version = .http11 ∧
      ∃ (head : RequestHead) (key : Key) (signature : FieldValue),
        (head.method = seen.method ∧ head.uri = seen.uri ∧ head.version = seen.version) ∧
        (store.value files).result = .ok key ∧
        signer.sign head now key = .ok signature ∧
        (∀ name, seen.headers.values name =
          if name = signer.header then [signature] else head.headers.values name) ∧
        ∀ name, head.headers.values name = request.headers.outboundValues (announcement version)
          (client.map request.headers.stripHops.chainValue) name := by
  obtain @⟨uri, key, signature, huri, hkey, hsign⟩ := (mem_calls_serve inner memory).mp hseen
  refine ⟨rfl, rfl, rfl, ((new backend version).1.unsigned client request uri).toRequestHead, key,
    signature, ⟨rfl, rfl, rfl⟩, hkey, hsign, ?_, ?_⟩
  · intro name
    exact Headers.values_insert _ _ _ _
  · intro name
    rw [← announced_new backend version]
    exact values_outboundHeaders _ client request.headers name

/-- With a key, a request that can be addressed is given to the carrier: no token fails. -/
theorem exists_mem_calls (inner : Carrier σ) (memory : σ) {g : Gateway} {issuer : String}
    {files : FileTree} {now : Int64} {client : Option IpAddress} {request : Request}
    {store : KeyStore} {uri : Uri} {key : Key} (huri : g.Addressed request uri)
    (hkey : (store.value files).result = .ok key) :
    ∃ seen ∈ (g.serve (Token.signer issuer) files now inner client request store memory).calls,
      seen.uri = uri :=
  ⟨_, (mem_calls_serve inner memory).mpr (.intro huri hkey (Token.signer_sign _ _ _ _)), rfl⟩

/-- The client names the version and a field of its own in `connection`: the version is announced all
the same, the other field does not pass, and one that is not named keeps both its values. -/
theorem framed_against_nomination :
    let backend : Backend := ⟨.http, "h", "", none⟩
    let headers : Headers :=
      ⟨[(.connection, ⟨Utf8.encode "authpx-version, x-extra", by decide⟩),
        (.proxyVersion, ⟨Utf8.encode "forged", by decide⟩),
        (⟨"x-extra", by decide⟩, ⟨Utf8.encode "1", by decide⟩),
        (⟨"x-kept", by decide⟩, ⟨Utf8.encode "a", by decide⟩),
        (⟨"x-kept", by decide⟩, ⟨Utf8.encode "b", by decide⟩)]⟩
    let request : Request := ⟨⟨.get, ⟨none, none, "/", none⟩, .http2, headers⟩, .empty⟩
    let store : KeyStore := ⟨"", some ⟨List.replicate keyLength 0, rfl⟩⟩
    let inner : Carrier Unit := fun _ _ => (.done (.ok (.ofText .ok "")), ())
    let calls := ((new backend "1.0").1.serve (Token.signer "i") .empty 0 inner
      (some (.v4 10 0 0 1)) request store ()).calls
    ∃ seen ∈ calls,
      seen.headers.values .proxyVersion = [⟨Utf8.encode "1.0", by decide⟩] ∧
      seen.headers.values .forwardedFor = [⟨Utf8.encode "10.0.0.1", by decide⟩] ∧
      seen.headers.values ⟨"x-extra", by decide⟩ = [] ∧
      (seen.headers.values ⟨"x-kept", by decide⟩).map (·.bytes) = [[97], [98]] := by
  intro backend headers request store inner calls
  have hpath : backend.pathAndQuery request.uri = "/" := by decide
  have hbuild : Uri.build "http" "h" "/" = .ok ⟨some "http", some "h", "/", none⟩ := by rfl
  have haddressed : (new backend "1.0").1.Addressed request
      ⟨some "http", some "h", "/", none⟩ := by
    rw [Addressed, backend_new, hpath]
    exact ⟨by decide, hbuild⟩
  obtain ⟨seen, hseen, -⟩ : ∃ seen ∈ calls, seen.uri = _ :=
    exists_mem_calls inner () haddressed rfl
  obtain ⟨-, -, -, head, key, signature, -, -, -, hvalues, hhead⟩ := framed_of_mem_calls hseen
  refine ⟨seen, hseen, ?_, ?_, ?_, ?_⟩
  all_goals
    rw [hvalues, if_neg (by decide), hhead]
    decide +kernel

end Gateway

end SigningProxy
