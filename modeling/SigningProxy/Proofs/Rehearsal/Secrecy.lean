import SigningProxy.Proofs.Forward.Secrecy
import SigningProxy.Proofs.Rehearsal.Turns

/-!
# The key does not leak

Two runs that differ in nothing but keys are told apart by nobody but the backend, and by the backend only from
the signatures. That they differ in nothing but keys is said of the redacted worlds: these are equal in both
runs, turn by turn, because redacting commutes with everything that is done to files and because an exchange
does not tell the key.
-/

namespace SigningProxy

/-! ### The world -/

/-- The reply with a redacted content. -/
def WorldReply.redacted : WorldReply → WorldReply
  | .done => .done
  | .content bytes => .content (Key.redact bytes)

/-- The step with a redacted content. -/
def WorldStep.redacted : WorldStep → WorldStep
  | .write path content => .write path (Key.redact content)
  | step => step

namespace World

/-- The world with redacted files. -/
def redacted (w : World) : World := ⟨w.files.recode Key.redact, w.clock⟩

theorem keep_redacted (w : World) (changed : Except FileError FileTree) :
    w.redacted.keep (changed.map (FileTree.recode Key.redact)) =
      ((w.keep changed).1.map WorldReply.redacted, (w.keep changed).2.redacted) := by
  cases changed <;> rfl

/-- **Redacting the world and what is done to it redacts what comes of it.** -/
theorem perform_redacted (w : World) (step : WorldStep) :
    w.redacted.perform step.redacted =
      ((w.perform step).1.map WorldReply.redacted, (w.perform step).2.redacted) := by
  cases step with
  | write path content =>
      change w.redacted.keep ((w.files.recode Key.redact).write path (Key.redact content)) = _
      rw [FileTree.write_recode]
      exact keep_redacted w (w.files.write path content)
  | remove path =>
      change w.redacted.keep ((w.files.recode Key.redact).remove path) = _
      rw [FileTree.remove_recode]
      exact keep_redacted w (w.files.remove path)
  | makeDirectories path =>
      rw [show (WorldStep.makeDirectories path).redacted = .makeDirectories path from rfl, perform, perform,
        redacted, FileTree.makeDirectories_recode]
      rcases w.files.makeDirectories path with ⟨cause | _, files⟩ <;> rfl
  | read path =>
      change (((w.files.recode Key.redact).read path).map WorldReply.content, w.redacted) = _
      rw [FileTree.read_recode, perform]
      rcases w.files.read path with cause | content <;> rfl
  | setClock now => rfl

theorem perform_alike {w w' : World} {step step' : WorldStep} (hworld : w.redacted = w'.redacted)
    (hstep : step.redacted = step'.redacted) :
    (w.perform step).1.map WorldReply.redacted = (w'.perform step').1.map WorldReply.redacted ∧
      (w.perform step).2.redacted = (w'.perform step').2.redacted := by
  have hperform := w.perform_redacted step
  rw [hworld, hstep, perform_redacted] at hperform
  injection hperform with hresult hafter
  exact ⟨hresult.symm, hafter.symm⟩

end World

/-! ### Turns -/

/-- The turn with a redacted content, if anything is written. -/
def Turn.redacted : Turn → Turn
  | .world step => .world step.redacted
  | turn => turn

/-- The session with a redacted store and redacted files. -/
def Session.redacted (s : Session) : Session :=
  { s with store := s.store.redacted, world := s.world.redacted }

/-- Visits of which the client and the log show the same, and the backend nothing but other signatures. -/
structure Visit.Alike (visit visit' : Visit) : Prop where
  outcome : visit.exchange.outcome = visit'.exchange.outcome
  records : visit.exchange.records = visit'.exchange.records
  calls : List.Forall₂ Request.SameButSignature visit.calls visit'.calls

/-- Visits that are alike, or the same look at the world but for the keys that files hold. -/
inductive Sight.Alike : Sight → Sight → Prop
  | world {result result' : Except FileError WorldReply}
    (hresult : result.map WorldReply.redacted = result'.map WorldReply.redacted) :
    Alike (.world result) (.world result')
  | visit {visit visit' : Visit} (hvisit : visit.Alike visit') : Alike (.visit visit) (.visit visit')

namespace Session

theorem visit_alike (issuer : String) (g : Gateway) (deadline : Option Deadline) (client : Option IpAddress)
    (request : Request) {inner : Carrier Unit} (hignores : inner.IgnoresToken) {store store' : KeyStore}
    {w w' : World} (hstore : store.redacted = store'.redacted) (hworld : w.redacted = w'.redacted) :
    let visited := (⟨g, deadline, some (Token.signer issuer), store, w⟩ : Session).visit client request inner
    let visited' := (⟨g, deadline, some (Token.signer issuer), store', w'⟩ : Session).visit client request inner
    visited.1.Alike visited'.1 ∧ visited.2.redacted = visited'.2.redacted ∧
      visited.2.signer = some (Token.signer issuer) := by
  obtain ⟨files, now⟩ := w
  obtain ⟨files', now'⟩ := w'
  injection hworld with hfiles hclock
  cases hclock
  have hserve := g.serve_alike issuer now client request hignores hstore hfiles
  dsimp only at hserve ⊢
  rw [visit_signing, visit_signing]
  dsimp only
  generalize g.serve _ files now inner client request store () = served at hserve ⊢
  generalize g.serve _ files' now inner client request store' () = served' at hserve ⊢
  obtain ⟨hheard, hcalls, hafter⟩ := hserve
  have hunder := Exchange.heard_under hheard deadline
  refine ⟨⟨Exchange.outcome_eq_of_heard hunder, Exchange.records_eq_of_heard hunder, hcalls⟩, ?_, rfl⟩
  simp only [redacted, hafter, World.redacted, hfiles]

variable {issuer : String} {s s' : Session} {turn turn' : Turn}

/-- **A turn does not tell the key.** -/
theorem take_alike (hsigner : s.signer = some (Token.signer issuer)) (hsession : s.redacted = s'.redacted)
    (hturn : turn.redacted = turn'.redacted)
    (hignores : ∀ client request inner, turn = .request client request inner → inner.IgnoresToken) :
    (s.take turn).1.Alike (s'.take turn').1 ∧ (s.take turn).2.redacted = (s'.take turn').2.redacted ∧
      (s.take turn).2.signer = some (Token.signer issuer) := by
  obtain ⟨g, deadline, signer, store, w⟩ := s
  obtain ⟨g', deadline', signer', store', w'⟩ := s'
  cases hsigner
  injection hsession with hgateway hdeadline hsigner hstore hworld
  cases hgateway
  cases hdeadline
  cases hsigner
  dsimp only at hstore hworld
  cases turn with
  | world step =>
      cases turn' with
      | request client request inner => cases hturn
      | world step' =>
          injection hturn with hstep
          obtain ⟨hresult, hafter⟩ := World.perform_alike hworld hstep
          refine ⟨.world hresult, ?_, rfl⟩
          change Session.mk g deadline _ store.redacted (w.perform step).2.redacted = _
          rw [hafter, hstore]
          rfl
  | request client request inner =>
      cases turn' with
      | world step => cases hturn
      | request client' request' inner' =>
          cases hturn
          rw [take_request, take_request]
          have hvisit := visit_alike issuer g deadline client request (hignores _ _ _ rfl) hstore hworld
          dsimp only at hvisit ⊢
          exact ⟨.visit hvisit.1, hvisit.2⟩

/-- **A run does not tell the key.** -/
theorem play_alike {turns turns' : List Turn} (hsigner : s.signer = some (Token.signer issuer))
    (hsession : s.redacted = s'.redacted) (hturns : turns.map Turn.redacted = turns'.map Turn.redacted)
    (hignores : ∀ client request inner, .request client request inner ∈ turns → inner.IgnoresToken) :
    List.Forall₂ Sight.Alike (s.play turns).1 (s'.play turns').1 ∧
      (s.play turns).2.redacted = (s'.play turns').2.redacted := by
  induction turns generalizing s s' turns' with
  | nil =>
      cases turns' with
      | nil => exact ⟨.nil, hsession⟩
      | cons turn' turns' => cases hturns
  | cons turn turns ih =>
      cases turns' with
      | nil => cases hturns
      | cons turn' turns' =>
          injection hturns with hturn hturns
          obtain ⟨hsight, hnext, hsigner⟩ := take_alike hsigner hsession hturn
            fun client request inner hrequest => hignores client request inner (hrequest ▸ List.mem_cons_self)
          obtain ⟨hsights, hafter⟩ := ih hsigner hnext hturns
            fun client request inner hmem => hignores client request inner (List.mem_cons_of_mem _ hmem)
          rw [play_cons, play_cons]
          exact ⟨.cons hsight hsights, hafter⟩

/-- **The key does not leak.** Take two sessions that issue tokens in the same name and differ, if at all, in
keys: the ones that their files spell, the ones that are written into files on the way, and the ones that they
have loaded. The clients get the same responses at the same moments, the same is told in the same order, and the
requests that the backend gets are the same up to the last part of the token, which is as long in both. The
backend may be anything that does not look at the token, such as a script; and two texts that spell keys are
such a difference wherever they are written. -/
theorem play_keeps_secret {issuer : String} {turns turns' : List Turn}
    (hsigner : s.signer = some (Token.signer issuer)) (hsession : s.redacted = s'.redacted)
    (hturns : turns.map Turn.redacted = turns'.map Turn.redacted)
    (hignores : ∀ client request inner, .request client request inner ∈ turns → inner.IgnoresToken) :
    List.Forall₂ Sight.Alike (s.play turns).1 (s'.play turns').1 ∧
      (∀ steps, s.run steps = ((s.play (steps.map SessionStep.turn)).1.map Sight.reply,
        (s.play (steps.map SessionStep.turn)).2)) ∧
      (∀ script : Script, Carrier.IgnoresToken script.carrier) ∧
      ∀ (path : String) (content content' : List UInt8) (key key' : Key),
        Key.decode path content = .ok key → Key.decode path content' = .ok key' →
        (WorldStep.write path content).redacted = (WorldStep.write path content').redacted ∧
        ∀ w : World, (w.perform (.write path content)).2.redacted =
          (w.perform (.write path content')).2.redacted := by
  refine ⟨(play_alike hsigner hsession hturns hignores).1, run_eq_play s, Script.ignoresToken, ?_⟩
  intro path content content' key key' hdecode hdecode'
  have hwrite : (WorldStep.write path content).redacted = (WorldStep.write path content').redacted := by
    rw [WorldStep.redacted, WorldStep.redacted, Key.redact_of_decode hdecode, Key.redact_of_decode hdecode']
  exact ⟨hwrite, fun w => (World.perform_alike rfl hwrite).2⟩

/-- A request comes before the key is there and another one after, and the key is one of zeros or one of ones. -/
theorem play_keeps_secret_zeros_ones :
    let g := (Gateway.new ⟨.http, "h", "", none⟩ "").1
    let zeros : Key := ⟨.replicate keyLength 0, rfl⟩
    let ones : Key := ⟨.replicate keyLength 1, rfl⟩
    let proxy : Session := ⟨g, none, some (Token.signer "i"), .new "secret", .start⟩
    let script : Script := .after 5 (.ok (.ofText .ok "answer"))
    let request : Turn :=
      .request none ⟨⟨.get, ⟨none, none, "/", none⟩, .http11, .empty⟩, .empty⟩ script.carrier
    let turns (key : Key) : List Turn :=
      [request, .world (.write "secret" (Base64.encode Base64.standard key.bytes)), request]
    List.Forall₂ Sight.Alike (proxy.play (turns zeros)).1 (proxy.play (turns ones)).1 := by
  intro g zeros ones proxy script request turns
  have hredacted (key : Key) : (turns key).map Turn.redacted =
      [request, .world (.write "secret" (Key.redact (Base64.encode Base64.standard key.bytes))), request] :=
    rfl
  have hturns : (turns zeros).map Turn.redacted = (turns ones).map Turn.redacted := by
    rw [hredacted, hredacted, Key.redact_of_decode (Key.decode_encode "" zeros),
      Key.redact_of_decode (Key.decode_encode "" ones)]
  have hsigner : proxy.signer = some (Token.signer "i") := rfl
  refine (play_keeps_secret hsigner rfl hturns ?_).1
  intro client sent inner hmem
  obtain ⟨-, -, rfl⟩ : client = none ∧ sent = _ ∧ inner = script.carrier := by
    simpa [turns, request] using hmem
  exact Script.ignoresToken script

end Session

end SigningProxy
