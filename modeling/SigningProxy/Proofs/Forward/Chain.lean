import SigningProxy.Proofs.Forward.Confinement
import SigningProxy.Proofs.Forward.Frame
import SigningProxy.Proofs.Forward.Nominations

/-!
# For whom a request is made

The chain of addresses is one value, and it ends in the address of the client. Whatever texts the client
sent under the name of the chain stand before it, so a client can put addresses in front of its own but
cannot hide it. Each gateway on the way puts one address at the end, and behind all of them the chain is the
list of the clients.

A `connection` field that lists the name takes away what the client sent, if the field is a text. A field
that is none lists the name without any effect.
-/

namespace SigningProxy

variable {σ : Type}

/-! ### One more address -/

namespace Headers

/-- The values of a name that are texts. -/
def texts (h : Headers) (name : FieldName) : List (List UInt8) :=
  ((h.values name).filter fun v => v.bytes.all isTextByte).map (·.bytes)

/-- The addresses for which a request has been forwarded so far. -/
def chain (h : Headers) : List String := (h.values .forwardedFor).filterMap FieldValue.text?

theorem map_encode_chain (h : Headers) : h.chain.map Utf8.encode = h.texts .forwardedFor := by
  rw [chain, texts]
  induction h.values .forwardedFor with
  | nil => rfl
  | cons v values ih =>
      by_cases hall : v.bytes.all isTextByte = true
      · have htext := FieldValue.text?_of_isText (List.all_eq_true.mp hall)
        rw [List.filterMap_cons_some htext, List.map_cons, ih, List.filter_cons, if_pos hall,
          List.map_cons, (FieldValue.encode_of_text? htext).2]
      · have htext := FieldValue.text?_of_not_isText (mt List.all_eq_true.mpr hall)
        rw [List.filterMap_cons_none htext, ih, List.filter_cons, if_neg hall]

theorem bytes_chainValue (h : Headers) (client : IpAddress) :
    (h.chainValue client).bytes =
      [44, 32].intercalate (h.texts .forwardedFor ++ [Utf8.encode client.text]) := by
  change Utf8.encode (", ".intercalate (h.chain ++ [client.text])) = _
  rw [Utf8.encode_intercalate, List.map_append, map_encode_chain]
  rfl

theorem text?_chainValue (h : Headers) (client : IpAddress) :
    (h.chainValue client).text? = some (h.forwardedChain client) := by
  have htext : (h.chainValue client).IsText := (h.isFieldText_forwardedChain client).isTextByte
  have hsome := FieldValue.text?_of_isText htext
  have hbytes : Utf8.encode _ = Utf8.encode (h.forwardedChain client) :=
    (FieldValue.encode_of_text? hsome).2
  have hread := Utf8.decode?_encode (h.forwardedChain client)
  rw [← hbytes, Utf8.decode?_encode] at hread
  exact hsome.trans hread

theorem chain_appendForwarded (h : Headers) (client : IpAddress) :
    (h.appendForwarded client).chain = [", ".intercalate (h.chain ++ [client.text])] := by
  rw [appendForwarded_eq, chain, values_insert, if_pos rfl,
    List.filterMap_cons_some (text?_chainValue h client)]
  rfl

/-- Every gateway on the way puts its client at the end. -/
theorem values_foldl_appendForwarded (h : Headers) (first : IpAddress) (clients : List IpAddress) :
    (((first :: clients).foldl appendForwarded h).values .forwardedFor).map (·.bytes) =
      [Utf8.encode (", ".intercalate (h.chain ++ (first :: clients).map IpAddress.text))] := by
  induction clients generalizing h first with
  | nil =>
      rw [List.foldl_cons, List.foldl_nil, appendForwarded_eq, values_insert, if_pos rfl]
      rfl
  | cons next clients ih =>
      have hne : h.chain ++ [first.text] ≠ [] := by simp
      have hnext : (next :: clients).map IpAddress.text ≠ [] := List.cons_ne_nil _ _
      have hjoined :
          ", ".intercalate ((h.chain ++ [first.text]) ++ (next :: clients).map IpAddress.text) =
            ", ".intercalate ([", ".intercalate (h.chain ++ [first.text])] ++
              (next :: clients).map IpAddress.text) := by
        rw [String.intercalate_append_of_ne_nil hne hnext,
          String.intercalate_append_of_ne_nil (List.cons_ne_nil _ _) hnext,
          String.intercalate_singleton]
      rw [List.foldl_cons, ih, chain_appendForwarded, ← hjoined, List.append_assoc]
      rfl

/-- This header says that a request with the header `inbound` has been made by a client: there is one value
of the chain, and it is the client alone or, behind a comma and a blank each, the texts that were there and
then the client. -/
def TellsClient (outbound inbound : Headers) (client : IpAddress) : Prop :=
  ∃ value, outbound.values .forwardedFor = [value] ∧
    (inbound.NominatesInText .forwardedFor → value.bytes = Utf8.encode client.text) ∧
    (¬ inbound.NominatesInText .forwardedFor →
      value.bytes =
        [44, 32].intercalate (inbound.texts .forwardedFor ++ [Utf8.encode client.text]))

theorem texts_stripHops (h : Headers) (name : FieldName) :
    h.stripHops.texts name = if name ∈ h.hopNames then [] else h.texts name := by
  rw [texts, values_stripHops]
  split <;> rfl

end Headers

/-! ### Requests on their way -/

namespace Gateway

/-- The requests that a carrier is given for a request of a client. -/
def forwarded (g : Gateway) (carrier : Carrier σ) (client : Option IpAddress) (request : Request)
    (memory : σ) : List Request :=
  (g.handle carrier.watched client request (memory, [])).2.2

theorem forwarded_of_ok {g : Gateway} {client : Option IpAddress} {request outbound : Request}
    (hout : g.outbound client request = .ok outbound) (carrier : Carrier σ) (memory : σ) :
    g.forwarded carrier client request memory = [outbound] := by
  unfold forwarded handle
  rw [hout]
  rfl

theorem forwarded_of_error {g : Gateway} {client : Option IpAddress} {request : Request}
    {cause : ForwardError} (hout : g.outbound client request = .error cause) (carrier : Carrier σ)
    (memory : σ) : g.forwarded carrier client request memory = [] := by
  unfold forwarded handle
  rw [hout]

theorem tellsClient_outboundHeaders (g : Gateway) (client : IpAddress) (headers : Headers) :
    (g.outboundHeaders (some client) headers).TellsClient headers client := by
  have hvalues := values_outboundHeaders g (some client) headers .forwardedFor
  have hversion : ¬ (FieldName.forwardedFor = .proxyVersion ∧ g.announced.isSome) :=
    fun h => absurd h.1 (by decide)
  have hhop : FieldName.forwardedFor ∉ FieldName.ofHop := by decide
  rw [Headers.outboundValues, if_neg hversion, if_pos ⟨rfl, rfl⟩] at hvalues
  refine ⟨headers.stripHops.chainValue client, hvalues, ?_, ?_⟩
  · intro hnamed
    rw [Headers.bytes_chainValue, Headers.texts_stripHops,
      if_pos (Headers.mem_hopNames.mpr (.inl hnamed)), List.nil_append, List.intercalate_singleton]
  · intro hnamed
    rw [Headers.bytes_chainValue, Headers.texts_stripHops, if_neg]
    rw [Headers.mem_hopNames]
    exact not_or_intro hnamed hhop

theorem outbound_of_readdressed {g : Gateway} {request readdressed : Request}
    (hready : g.backend.readdress request = .ok readdressed) (client : Option IpAddress) :
    ∃ outbound, g.outbound client request = .ok outbound ∧
      outbound.headers = g.outboundHeaders client request.headers := by
  obtain ⟨hport, uri, hbuild, -⟩ := Backend.readdress_eq_ok_iff.mp hready
  exact ⟨g.unsigned client request uri, outbound_of_addressed ⟨hport, hbuild⟩, rfl⟩

theorem outbound_of_not_readdressed {g : Gateway} {request : Request} {cause : ForwardError}
    (hready : g.backend.readdress request = .error cause) (client : Option IpAddress) :
    g.outbound client request = .error cause := by
  rw [outbound, hready]
  rfl

/-- **The client is never left out.** A request that can be addressed to the backend is given to the carrier
with one value of the chain, which ends in the client, and a carrier that signs hands on this value. No text
on the way to it is refused as a value. So clients that are put behind a header without a chain, one after the
other, are the chain. -/
theorem client_told (g : Gateway) (carrier : Carrier σ) (client : IpAddress) (request : Request)
    (memory : σ) :
    (∀ readdressed, g.backend.readdress request = .ok readdressed →
      ∃ seen, g.forwarded carrier (some client) request memory = [seen] ∧
        seen.headers.TellsClient request.headers client) ∧
    (∀ cause, g.backend.readdress request = .error cause →
      g.forwarded carrier (some client) request memory = []) ∧
    (∀ (signer : Signer) (files : FileTree) (now : Int64) (store : KeyStore),
      signer.header ≠ .forwardedFor →
      ∀ seen ∈ (g.serve signer files now carrier (some client) request store memory).calls,
        seen.headers.TellsClient request.headers client) ∧
    (∀ h : Headers, ∃ value, FieldValue.ofString? (h.forwardedChain client) = some value ∧
      h.appendForwarded client = h.insert .forwardedFor value) ∧
    ∀ (h : Headers) (clients : List IpAddress), h.values .forwardedFor = [] →
      ((clients.foldl Headers.appendForwarded h).values .forwardedFor).map (·.bytes) =
        if clients.isEmpty then []
        else [Utf8.encode (", ".intercalate (clients.map IpAddress.text))] := by
  refine ⟨?_, ?_, ?_, ?_, ?_⟩
  · intro readdressed hready
    obtain ⟨outbound, hout, hheaders⟩ := outbound_of_readdressed hready (some client)
    refine ⟨outbound, forwarded_of_ok hout carrier memory, ?_⟩
    rw [hheaders]
    exact tellsClient_outboundHeaders g client request.headers
  · intro cause hready
    exact forwarded_of_error (outbound_of_not_readdressed hready _) carrier memory
  · intro signer files now store hsigner seen hseen
    obtain ⟨-, -, -⟩ := (mem_calls_serve carrier memory).mp hseen
    obtain ⟨value, hvalue, hrest⟩ := tellsClient_outboundHeaders g client request.headers
    refine ⟨value, ?_, hrest⟩
    rw [← hvalue]
    exact (Headers.values_insert _ _ _ _).trans (if_neg hsigner.symm)
  · intro h
    exact ⟨h.chainValue client,
      FieldValue.ofString?_of_isFieldText (h.isFieldText_forwardedChain client),
      h.appendForwarded_eq client⟩
  · intro h clients hnone
    cases clients with
    | nil =>
        rw [List.foldl_nil, hnone]
        rfl
    | cons first clients =>
        rw [Headers.values_foldl_appendForwarded, Headers.chain, hnone]
        rfl

/-- A byte beyond ASCII behind the comma keeps what the client sent in the chain, although the field is
listed. -/
theorem not_alone_beside_stray_byte :
    let g : Gateway := ⟨⟨.http, "h", "", none⟩, none⟩
    let headers : Headers :=
      ⟨[(.connection, ⟨Utf8.encode "x-forwarded-for, " ++ [255], by decide⟩),
        (.forwardedFor, ⟨Utf8.encode "1.2.3.4", by decide⟩)]⟩
    let request : Request := ⟨⟨.get, ⟨none, none, "/", none⟩, .http11, headers⟩, .empty⟩
    let carrier : Carrier Unit := fun _ _ => (.done (.ok (.ofText .ok "")), ())
    headers.Nominates .forwardedFor ∧
      ∃ seen, g.forwarded carrier (some (.v4 10 0 0 1)) request () = [seen] ∧
        (seen.headers.values .forwardedFor).map (·.bytes) = [Utf8.encode "1.2.3.4, 10.0.0.1"] ∧
        ¬ (headers.Nominates .forwardedFor →
          (seen.headers.values .forwardedFor).map (·.bytes) = [Utf8.encode "10.0.0.1"]) := by
  intro g headers request carrier
  have hlists : headers.Nominates .forwardedFor :=
    ⟨⟨Utf8.encode "x-forwarded-for, " ++ [255], by decide⟩, by decide,
      Utf8.encode "x-forwarded-for", by decide, by decide⟩
  have hunread : ¬ headers.NominatesInText .forwardedFor := by
    rintro ⟨v, hv, htext, -⟩
    have hvalues : (headers.values .connection).map (·.bytes) =
        [Utf8.encode "x-forwarded-for, " ++ [255]] := by decide
    have hbytes := List.mem_map_of_mem (f := (·.bytes)) hv
    rw [hvalues, List.mem_singleton] at hbytes
    have hstray := htext 255 (by rw [hbytes]; decide)
    exact absurd hstray (by decide)
  have hpath : g.backend.pathAndQuery request.uri = "/" := by decide
  have hbuild : Uri.build "http" "h" "/" = .ok ⟨some "http", some "h", "/", none⟩ := by rfl
  have hready := Backend.readdress_eq_ok_iff.mpr
    (⟨by decide, _, hpath ▸ hbuild, rfl⟩ : Authority.badPort? g.backend.authority = none ∧ _)
  obtain ⟨seen, hout, hheaders⟩ := outbound_of_readdressed hready (some (.v4 10 0 0 1))
  obtain ⟨value, hvalue, -, hbytes⟩ := tellsClient_outboundHeaders g (.v4 10 0 0 1) headers
  have hchain : (seen.headers.values .forwardedFor).map (·.bytes) =
      [Utf8.encode "1.2.3.4, 10.0.0.1"] := by
    rw [hheaders, hvalue, List.map_singleton, hbytes hunread]
    decide
  refine ⟨hlists, seen, forwarded_of_ok hout carrier (), hchain, ?_⟩
  intro halone
  rw [halone hlists] at hchain
  exact absurd hchain (by decide)

end Gateway

end SigningProxy
