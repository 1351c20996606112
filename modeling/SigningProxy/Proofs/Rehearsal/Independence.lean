import SigningProxy.Proofs.Forward.Frame
import SigningProxy.Proofs.Forward.Given
import SigningProxy.Proofs.Rehearsal.Turns

/-!
# Requests are independent of each other

What a signing proxy does with a request is settled by the request, the clock, and the answer to one question,
the one for the key. The store gives the first key that has been loaded, and as long as there is none it looks
at the file. So a proxy that has gone through any number of requests treats the next one like a new proxy that
finds this key in its file.

A request loads the key if it gets as far as the key: one that cannot be addressed to the backend does not,
and one that fails behind the key does.
-/

namespace SigningProxy

variable {σ : Type}

namespace Gateway

variable (g : Gateway)

/-- The key that a request loads: the one that the file spells, if the request gets as far. -/
def loads? (path : String) (files : FileTree) (request : Request) : Option Key :=
  if g.asksKey request then (KeyStore.fetch path files).toOption else none

theorem storeAfter_eq (files : FileTree) (request : Request) (store : KeyStore) :
    g.storeAfter files request store =
      { store with key := store.key.or (g.loads? store.path files request) } := by
  rw [storeAfter, loads?]
  cases g.asksKey request with
  | true => exact store.store_value files
  | false =>
      change store = { store with key := store.key.or none }
      rw [Option.or_none]

section

variable (signer : Signer) (now : Int64) (inner : Carrier σ) (client : Option IpAddress)
  (request : Request) (memory : σ) {files files' : FileTree} {store store' : KeyStore}

theorem store_serve (files : FileTree) (store : KeyStore) :
    (g.serve signer files now inner client request store memory).store =
      { store with key := store.key.or (g.loads? store.path files request) } := by
  rw [serve_eq_given, storeAfter_eq]

/-- **An exchange depends on the files and the store through the answer for the key.** -/
theorem serve_congr (hresult : (store.value files).result = (store'.value files').result) :
    (g.serve signer files now inner client request store memory).exchange.outcome =
        (g.serve signer files' now inner client request store' memory).exchange.outcome ∧
      (g.serve signer files now inner client request store memory).calls =
        (g.serve signer files' now inner client request store' memory).calls := by
  rw [serve_eq_given, serve_eq_given, hresult]
  exact ⟨by rw [outcome_bind_reply, outcome_bind_reply], rfl⟩

/-- The records of an exchange depend on them through the answer as a whole. -/
theorem serve_congr_value (hvalue : store.value files = store'.value files') :
    (g.serve signer files now inner client request store memory).exchange =
        (g.serve signer files' now inner client request store' memory).exchange ∧
      (g.serve signer files now inner client request store memory).calls =
        (g.serve signer files' now inner client request store' memory).calls := by
  rw [serve_eq_given, serve_eq_given, hvalue]
  exact ⟨rfl, rfl⟩

end

/-! ### Runs -/

/-- The key that a turn loads. -/
def loadsIn? (path : String) (w : World) : Turn → Option Key
  | .world _ => none
  | .request _ request _ => g.loads? path w.files request

end Gateway

/-- The world after a turn. -/
def World.next (w : World) : Turn → World
  | .world step => (w.perform step).2
  | .request .. => w

/-- The world after some turns. -/
def World.after (w : World) (turns : List Turn) : World := turns.foldl World.next w

/-- The first key that is loaded in some turns, if any is. -/
def Gateway.firstKey (g : Gateway) (path : String) (w : World) : List Turn → Option Key
  | [] => none
  | turn :: turns => (g.loadsIn? path w turn).or (g.firstKey path (w.next turn) turns)

/-- The files from which a proxy gets its key: any that hold the one that has been loaded, and the present
ones if none has. -/
def KeyStore.Supplies (path : String) (loaded : Option Key) (present files : FileTree) : Prop :=
  match loaded with
  | some key => fetch path files = .ok key
  | none => files = present

theorem Exchange.outcome_under {e e' : Exchange Response} (houtcome : e.outcome = e'.outcome)
    (deadline : Option Deadline) : (e.under deadline).outcome = (e'.under deadline).outcome := by
  cases deadline with
  | none => exact houtcome
  | some d =>
      change (d.run e).outcome = (d.run e').outcome
      rw [Deadline.outcome_run, Deadline.outcome_run, houtcome]

variable (g : Gateway) (deadline : Option Deadline) (signer : Signer) (path : String)

namespace Session

theorem take_signing (store : KeyStore) (w : World) (turn : Turn) :
    ((⟨g, deadline, some signer, store, w⟩ : Session).take turn).2 =
      ⟨g, deadline, some signer, { store with key := store.key.or (g.loadsIn? store.path w turn) },
        w.next turn⟩ := by
  cases turn with
  | world step =>
      change (⟨g, deadline, some signer, store, _⟩ : Session) =
        ⟨g, deadline, some signer, { store with key := store.key.or none }, _⟩
      rw [Option.or_none]
      rfl
  | request client request inner =>
      rw [take_request, visit_signing, Gateway.store_serve]
      rfl

/-- **A run leaves in the store the first key that it loads.** -/
theorem play_signing (key : Option Key) (w : World) (turns : List Turn) :
    ((⟨g, deadline, some signer, ⟨path, key⟩, w⟩ : Session).play turns).2 =
      ⟨g, deadline, some signer, ⟨path, key.or (g.firstKey path w turns)⟩, w.after turns⟩ := by
  induction turns generalizing key w with
  | nil =>
      rw [Gateway.firstKey, Option.or_none]
      rfl
  | cons turn turns ih =>
      rw [play_cons]
      dsimp only
      rw [take_signing, ih, Gateway.firstKey, Option.or_assoc]
      rfl

end Session

theorem Gateway.exists_fetch_of_firstKey {g : Gateway} {path : String} {w : World}
    {turns : List Turn} {key : Key} (hfirst : g.firstKey path w turns = some key) :
    ∃ files, KeyStore.fetch path files = .ok key := by
  induction turns generalizing w with
  | nil => cases hfirst
  | cons turn turns ih =>
      rw [firstKey, Option.or_eq_some_iff] at hfirst
      rcases hfirst with hloads | ⟨-, hlater⟩
      · cases turn with
        | world step => cases hloads
        | request client request inner =>
            rw [loadsIn?, loads?] at hloads
            split at hloads
            · rcases hfetch : KeyStore.fetch path w.files with cause | read
              · rw [hfetch] at hloads
                cases hloads
              · rw [hfetch] at hloads
                cases hloads
                exact ⟨w.files, hfetch⟩
            · cases hloads
      · exact ih hlater

theorem KeyStore.exists_supplies {g : Gateway} {path : String} {w : World} {turns : List Turn}
    (present : FileTree) : ∃ files, Supplies path (g.firstKey path w turns) present files := by
  rcases hfirst : g.firstKey path w turns with _ | key
  · exact ⟨present, rfl⟩
  · exact Gateway.exists_fetch_of_firstKey hfirst

namespace Session

/-- A signing proxy that has just been started. -/
def fresh (w : World) : Session := ⟨g, deadline, some signer, .new path, w⟩

section

variable (client : Option IpAddress) (request : Request) (inner : Carrier Unit)

theorem play_fresh_single (files : FileTree) (now : Int64) :
    ((fresh g deadline signer path ⟨files, now⟩).play [.request client request inner]).1 =
      [.visit ⟨(g.serve signer files now inner client request (.new path) ()).exchange.under deadline,
        (g.serve signer files now inner client request (.new path) ()).calls⟩] := by
  rw [play_cons, take_request, fresh, visit_signing, play]

/-- What a started proxy makes of a request depends on the turns before it through the first key that they
load and the world that they leave. -/
theorem getElem?_play_fresh (w : World) (before after : List Turn) :
    ((fresh g deadline signer path w).play
        (before ++ .request client request inner :: after)).1[before.length]? =
      some (.visit ⟨(g.serve signer (w.after before).files (w.after before).clock inner client request
          ⟨path, g.firstKey path w before⟩ ()).exchange.under deadline,
        (g.serve signer (w.after before).files (w.after before).clock inner client request
          ⟨path, g.firstKey path w before⟩ ()).calls⟩) := by
  rw [getElem?_play, fresh, KeyStore.new, play_signing, Option.none_or, take_request, visit_signing]

end

end Session

namespace KeyStore

variable {path} {loaded : Option Key} {present files : FileTree}

theorem result_of_supplies (hsupplies : Supplies path loaded present files) :
    ((⟨path, loaded⟩ : KeyStore).value present).result = ((KeyStore.new path).value files).result := by
  rw [result_value, result_value]
  cases loaded with
  | none =>
      cases hsupplies
      rfl
  | some key => exact hsupplies.symm

theorem value_eq_of_loaded (hfiles : loaded = none → files = present) :
    (⟨path, loaded⟩ : KeyStore).value files = (⟨path, loaded⟩ : KeyStore).value present := by
  cases loaded with
  | none => rw [hfiles rfl]
  | some key =>
      rw [value_of_some (s := ⟨path, some key⟩) rfl, value_of_some (s := ⟨path, some key⟩) rfl]

end KeyStore

namespace Session

/-- **A request is treated as by a new proxy** that finds in its file the first key that the requests before
it have loaded, and the present file if they have loaded none. Other turns before it, with the same first key
and the same clock, would change nothing, and a loaded key makes other files change nothing. -/
theorem play_independent (w : World) (before after : List Turn) (client : Option IpAddress)
    (request : Request) (inner : Carrier Unit) :
    let proxy := fresh g deadline signer path
    let turn := Turn.request client request inner
    let loaded := g.firstKey path w before
    let present := w.after before
    (∃ visit, ((proxy w).play (before ++ turn :: after)).1[before.length]? = some (.visit visit) ∧
      (∀ files, KeyStore.Supplies path loaded present.files files →
        ∃ alone, ((proxy ⟨files, present.clock⟩).play [turn]).1 = [.visit alone] ∧
          visit.exchange.outcome = alone.exchange.outcome ∧ visit.calls = alone.calls) ∧
      ∀ w' before' after', g.firstKey path w' before' = loaded →
        (w'.after before').clock = present.clock →
        (loaded = none → (w'.after before').files = present.files) →
        ((proxy w').play (before' ++ turn :: after')).1[before'.length]? = some (.visit visit)) ∧
    ((proxy w).play before).2.store = ⟨path, loaded⟩ ∧
    (∃ files, KeyStore.Supplies path loaded present.files files) ∧
    ∀ steps, (proxy w).run steps =
      (((proxy w).play (steps.map SessionStep.turn)).1.map Sight.reply,
        ((proxy w).play (steps.map SessionStep.turn)).2) := by
  dsimp only
  refine ⟨⟨_, getElem?_play_fresh g deadline signer path client request inner w before after, ?_, ?_⟩,
    ?_, KeyStore.exists_supplies _, run_eq_play _⟩
  · intro files hsupplies
    obtain ⟨houtcome, hcalls⟩ := g.serve_congr signer (w.after before).clock inner client request ()
      (KeyStore.result_of_supplies hsupplies)
    refine ⟨_, play_fresh_single g deadline signer path client request inner files _, ?_⟩
    dsimp only
    exact ⟨Exchange.outcome_under houtcome deadline, hcalls⟩
  · intro w' before' after' hfirst hclock hfiles
    obtain ⟨hexchange, hcalls⟩ := g.serve_congr_value signer (w.after before).clock inner client
      request () (KeyStore.value_eq_of_loaded hfiles)
    rw [getElem?_play_fresh, hfirst, hclock, hexchange, hcalls]
  · rw [fresh, KeyStore.new, play_signing, Option.none_or]

/-- The first request loads the key of zeros. Then the file is replaced and time goes on, and the second
request is treated as by a new proxy with the key of zeros. -/
theorem play_independent_replaced :
    let g := (Gateway.new ⟨.http, "h", "", none⟩ "").1
    let zeros : Key := ⟨.replicate keyLength 0, rfl⟩
    let ones : Key := ⟨.replicate keyLength 1, rfl⟩
    let text (key : Key) := Base64.encode Base64.standard key.bytes
    let tree (key : Key) : FileTree := ⟨[(.above 0, [("secret", .file (text key))])]⟩
    let proxy := fresh g none (Token.signer "i") "secret"
    let request : Request := ⟨⟨.get, ⟨none, none, "/", none⟩, .http11, .empty⟩, .empty⟩
    let turn : Turn := .request none request fun _ _ => (.done (.ok (.ofText .ok "")), ())
    let before : List Turn := [turn, .world (.write "secret" (text ones)), .world (.setClock 5)]
    ∃ visit alone, ((proxy ⟨tree zeros, 0⟩).play (before ++ [turn])).1[3]? = some (.visit visit) ∧
      ((proxy ⟨tree zeros, 5⟩).play [turn]).1 = [.visit alone] ∧
      visit.exchange.outcome = alone.exchange.outcome ∧ visit.calls = alone.calls := by
  intro g zeros ones text tree proxy request turn before
  have hfetch : KeyStore.fetch "secret" (tree zeros) = .ok zeros := Key.decode_encode "secret" zeros
  have hpath : g.backend.pathAndQuery request.uri = "/" := by decide
  have hbuild : Uri.build "http" "h" "/" = .ok ⟨some "http", some "h", "/", none⟩ := by rfl
  have haddressed : g.Addressed request ⟨some "http", some "h", "/", none⟩ := by
    rw [Gateway.Addressed, hpath]
    exact ⟨by decide, hbuild⟩
  have hasks : g.asksKey request = true :=
    Gateway.asksKey_of_ok none (Gateway.outbound_of_addressed haddressed)
  have hfirst : g.firstKey "secret" ⟨tree zeros, 0⟩ before = some zeros := by
    simp only [before, turn, Gateway.firstKey, Gateway.loadsIn?, Gateway.loads?, hasks, if_true, hfetch]
    rfl
  have hclock : (World.after ⟨tree zeros, 0⟩ before).clock = 5 := by rfl
  obtain ⟨⟨visit, hvisit, halone, -⟩, -⟩ := play_independent g none (Token.signer "i") "secret"
    ⟨tree zeros, 0⟩ before [] none request fun _ _ => (.done (.ok (.ofText .ok "")), ())
  obtain ⟨alone, hplay, houtcome, hcalls⟩ := halone (tree zeros) (by rw [hfirst]; exact hfetch)
  rw [hclock] at hplay
  exact ⟨visit, alone, hvisit, hplay, houtcome, hcalls⟩

end Session

end SigningProxy
