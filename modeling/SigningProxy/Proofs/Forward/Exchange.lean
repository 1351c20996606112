import SigningProxy.Forward.Gateway
import SigningProxy.Forward.Signing

/-!
# The stages of an exchange

A request that goes through a signing gateway passes five stages: the port of the backend is checked,
the address at the backend is put together, the key is loaded, the request is signed, and the signed
request is carried. `FailsAt` says which of the first four is the first to fail, and `Prepares` says
which request comes out of them; each is stated on the parts that the stage looks at, not through the
functions that run. What an exchange leads to is then one equation for each case.

So that it can be said what the carrier is given, it is watched: the watched carrier does the same
and keeps the requests.
-/

namespace SigningProxy

variable {σ : Type}

/-- The carrier that also keeps the requests it is given, first to last. -/
def Carrier.watched (inner : Carrier σ) : Carrier (σ × List Request) :=
  fun request (memory, calls) =>
    let (exchange, memory) := inner request memory
    (exchange, memory, calls ++ [request])

/-- What an exchange leads to: its course, the store and the memory afterwards, and the requests that
the carrier was given. -/
structure Served (σ : Type) where
  exchange : Exchange Response
  store : KeyStore
  memory : σ
  calls : List Request

/-- The stages before a request is carried, in their order. -/
inductive Stage where
  | port
  | address
  | key
  | signature
  deriving DecidableEq, Repr

namespace Gateway

variable (g : Gateway) (signer : Signer) (files : FileTree) (now : Int64) (inner : Carrier σ)
  (client : Option IpAddress) (request : Request) (store : KeyStore) (memory : σ)

/-- Let a request through with a signer, a store and a carrier, as the files and the clock stand. -/
def serve : Served σ :=
  let (exchange, store, memory, calls) :=
    g.handle (signing signer files now inner.watched) client request (store, memory, [])
  ⟨exchange, store, memory, calls⟩

/-- Watching changes nothing else. -/
theorem handle_eq_serve :
    g.handle (signing signer files now inner) client request (store, memory) =
      let served := g.serve signer files now inner client request store memory
      (served.exchange, served.store, served.memory) := by
  unfold serve handle
  split
  · rfl
  · unfold signing
    dsimp only
    split
    · rfl
    · split <;> rfl

/-- The request for an address at the backend, before it is signed. -/
def unsigned (uri : Uri) : Request :=
  { request with uri, version := .http11, headers := g.outboundHeaders client request.headers }

/-- The stages up to the address give this address. -/
def Addressed (uri : Uri) : Prop :=
  Authority.badPort? g.backend.authority = none ∧
    Uri.build g.backend.scheme.text g.backend.authority (g.backend.pathAndQuery request.uri)
      = .ok uri

/-- The first stage to fail, and why. -/
inductive FailsAt : Stage → ForwardError → Prop
  | port {port : String} (hport : Authority.badPort? g.backend.authority = some port) :
    FailsAt .port (.invalidPort port)
  | address {cause : UriError} (hport : Authority.badPort? g.backend.authority = none)
    (huri : Uri.build g.backend.scheme.text g.backend.authority (g.backend.pathAndQuery request.uri)
      = .error cause) :
    FailsAt .address (.invalidRequest cause)
  | key {uri : Uri} {cause : KeyError} (huri : g.Addressed request uri)
    (hkey : (store.value files).result = .error cause) : FailsAt .key (.key cause)
  | signature {uri : Uri} {key : Key} {cause : SignError} (huri : g.Addressed request uri)
    (hkey : (store.value files).result = .ok key)
    (hsign : signer.sign (g.unsigned client request uri).toRequestHead now key = .error cause) :
    FailsAt .signature (.sign cause)

/-- The request that comes out of the stages, when all of them succeed. -/
inductive Prepares : Request → Prop
  | intro {uri : Uri} {key : Key} {signature : FieldValue} (huri : g.Addressed request uri)
    (hkey : (store.value files).result = .ok key)
    (hsign : signer.sign (g.unsigned client request uri).toRequestHead now key = .ok signature) :
    Prepares { g.unsigned client request uri with
      headers := (g.outboundHeaders client request.headers).insert signer.header signature }

theorem failsAt_or_prepares :
    (∃ stage cause, g.FailsAt signer files now client request store stage cause) ∨
      ∃ outbound, g.Prepares signer files now client request store outbound := by
  rcases hport : Authority.badPort? g.backend.authority with _ | port
  · rcases huri : Uri.build g.backend.scheme.text g.backend.authority
        (g.backend.pathAndQuery request.uri) with cause | uri
    · exact Or.inl ⟨_, _, .address hport huri⟩
    · rcases hkey : (store.value files).result with cause | key
      · exact Or.inl ⟨_, _, .key ⟨hport, huri⟩ hkey⟩
      · rcases hsign : signer.sign (g.unsigned client request uri).toRequestHead now key
          with cause | signature
        · exact Or.inl ⟨_, _, .signature ⟨hport, huri⟩ hkey hsign⟩
        · exact Or.inr ⟨_, .intro ⟨hport, huri⟩ hkey hsign⟩
  · exact Or.inl ⟨_, _, .port hport⟩

variable {g signer files now client request store}

theorem FailsAt.not_prepares {stage : Stage} {cause : ForwardError}
    (hfails : g.FailsAt signer files now client request store stage cause) {outbound : Request} :
    ¬ g.Prepares signer files now client request store outbound := by
  rintro ⟨haddressed, hkey, hsign⟩
  cases hfails with
  | port hport =>
      rw [haddressed.1] at hport
      cases hport
  | address hport huri =>
      rw [haddressed.2] at huri
      cases huri
  | key _ hfailed =>
      rw [hkey] at hfailed
      cases hfailed
  | signature hother hkey' hfailed =>
      have huri := haddressed.2.symm.trans hother.2
      have hsame := hkey.symm.trans hkey'
      cases huri
      cases hsame
      rw [hsign] at hfailed
      cases hfailed

end Gateway

end SigningProxy
