import SigningProxy.Forward.Deadline
import SigningProxy.Proofs.Forward.Outcome
import SigningProxy.Proofs.Time.Moments
import SigningProxy.Rehearsal.Script

/-!
# What a deadline changes

A response is over when its head is there and its body has come to its end. By the deadline a response that is
over is passed on, with its body in one piece; a body that has broken off is a failure; and a response that is
not over is given up. The moment at which a response is over does not depend on the deadline, so nothing but
the giving up changes with it.

The budget is one for everything: reading the request, waiting for the backend, and reading the response.
-/

namespace SigningProxy

variable {σ α : Type}

/-- What comes at the limit comes at once then. -/
theorem Course.outcome_within {ε : Type} {c late : Course ε α} {value : α}
    (hlate : late.outcome = .now value) (limit : Nat) :
    (c.within limit late).outcome = c.outcome.within limit value := by
  have hdelay : (late.delay limit).outcome = .after limit value := by
    rw [Course.delay, hlate]
    rfl
  rw [Course.within]
  cases c.outcome with
  | after ms value' =>
      dsimp only [Eventual.within]
      split
      · rfl
      · exact hdelay
  | never => exact hdelay

/-! ### Responses -/

/-- A short text of the proxy's own: the status, the type of its content as its only field, and the text,
which is there at once, as its body. -/
structure Response.Says (response : Response) (code : Nat) (text : String) : Prop where
  status : response.status.code = code
  fields : response.headers.fields = [(contentType, plainText)]
  body : response.body.read = .now (.ok (Utf8.encode text))

theorem Response.says_ofText (status : Status) (text : String) :
    (Response.ofText status text).Says status.code text where
  status := rfl
  fields := rfl
  body := Body.read_ofBytes _

/-- The moment when the chunks of a body are over, if they ever are: it has ended or has broken off. -/
def Body.ended (b : Body) : Eventual Unit := (b.finish.delay b.span).map fun _ => ()

/-- When a response is over: its head is there, and then its body has ended or has broken off. -/
def Exchange.over (e : Exchange Response) : Eventual Unit :=
  e.outcome.bind fun response => response.body.ended

theorem Exchange.over_of_ends {e : Exchange Response} {head wait : Nat} {response : Response}
    {ended : Except BodyError Unit} (houtcome : e.outcome = .after head response)
    (hfinish : response.body.finish = .after wait ended) :
    e.over = .after (head + (response.body.span + wait)) () := by
  rw [Exchange.over, houtcome, Eventual.bind, Body.ended, hfinish]
  rfl

/-- The exchange under a deadline, if there is one. -/
def Exchange.under (e : Exchange Response) : Option Deadline → Exchange Response
  | some d => d.run e
  | none => e

namespace Deadline

variable {d : Deadline}

/-- What a response has become when its body has been read. -/
def collected (response : Response) : Except BodyError (List UInt8) → Response
  | .ok content => { response with body := .ofBytes content }
  | .error cause => .ofText .badGateway cause.message

theorem outcome_collect (response : Response) :
    (collect response).outcome = response.body.read.map (collected response) := by
  change (Course.bind (Course.await response.body.read) _).outcome = _
  rw [Course.outcome_bind, ← Eventual.bind_now]
  congr 1
  funext body
  cases body <;> rfl

/-- The response without a limit. -/
theorem outcome_run (d : Deadline) (e : Exchange Response) :
    (d.run e).outcome =
      (e.outcome.bind fun response => response.body.read.map (collected response)).within
        d.duration.millis (.ofText .serviceUnavailable d.message) := by
  have hgiveUp : d.giveUp.outcome = .now (.ofText .serviceUnavailable d.message) := rfl
  rw [run, Course.outcome_within hgiveUp, Course.outcome_bind]
  simp only [outcome_collect]

theorem ended_eq_map_read (b : Body) : b.ended = b.read.map fun _ => () := by
  rw [Body.ended, Body.read, Eventual.map_map]

/-- Reading a body changes nothing in the moment at which the response is over. -/
theorem arrivesBy_over {e : Exchange Response} {limit : Nat} :
    (e.outcome.bind fun response => response.body.read.map (collected response)).ArrivesBy limit ↔
      e.over.ArrivesBy limit := by
  have hover : e.over =
      (e.outcome.bind fun response => response.body.read.map (collected response)).map fun _ => () := by
    rw [Exchange.over]
    cases e.outcome with
    | never => rfl
    | after ms response =>
        simp only [Eventual.bind, ended_eq_map_read]
        cases response.body.read <;> rfl
  rw [hover, Eventual.arrivesBy_map]

theorem outcome_run_of_over {e : Exchange Response} (hover : e.over.ArrivesBy d.duration.millis) :
    (d.run e).outcome =
      e.outcome.bind fun response => response.body.read.map (collected response) := by
  rw [outcome_run, Eventual.within_of_arrivesBy (arrivesBy_over.mpr hover)]

theorem outcome_run_of_not_over {e : Exchange Response}
    (hover : ¬ e.over.ArrivesBy d.duration.millis) :
    (d.run e).outcome = .after d.duration.millis (.ofText .serviceUnavailable d.message) := by
  rw [outcome_run, Eventual.within_of_not_arrivesBy (mt arrivesBy_over.mp hover)]

end Deadline

theorem Eventual.bind_assoc {β γ : Type} (e : Eventual α) (f : α → Eventual β) (k : β → Eventual γ) :
    (e.bind f).bind k = e.bind fun value => (f value).bind k := by
  cases e with
  | never => rfl
  | after ms value =>
      change ((f value).delay ms).bind k = ((f value).bind k).delay ms
      cases f value with
      | never => rfl
      | after later next =>
          change (k next).delay (ms + later) = ((k next).delay later).delay ms
          cases k next with
          | never => rfl
          | after last final =>
              simp only [Eventual.delay, Nat.add_assoc]

theorem Eventual.map_bind {β γ : Type} (e : Eventual α) (f : α → β) (k : β → Eventual γ) :
    (e.map f).bind k = e.bind fun value => k (f value) := by
  cases e <;> rfl

namespace Gateway

variable {g : Gateway} {client : Option IpAddress} {request : Request}

theorem dispatch_eq (deadline : Option Deadline) (carrier : Carrier σ) (memory : σ) :
    g.dispatch deadline carrier client request memory =
      ((g.handle carrier client request memory).1.under deadline,
        (g.handle carrier client request memory).2) := by
  unfold dispatch
  generalize g.handle carrier client request memory = handled
  cases deadline <;> rfl

theorem handle_of_addressed {uri : Uri} (huri : g.Addressed request uri) (carrier : Carrier σ)
    (memory : σ) :
    g.handle carrier client request memory =
      ((carrier (g.unsigned client request uri) memory).1.bind (g.reply request),
        (carrier (g.unsigned client request uri) memory).2) := by
  unfold handle
  rw [outbound_of_addressed huri]
  rfl

theorem outcome_played (script : Script) (request : Request) :
    (script.carrier request ()).1.outcome = request.body.read.bind fun _ => script := by
  change (Course.bind (Course.await request.body.read) fun body =>
    Course.bind (Course.note [_]) fun _ => Course.await script).outcome = _
  simp only [Course.outcome_bind]
  congr 1
  funext body
  exact Eventual.now_bind () fun _ => script

/-- A played backend answers when it has read the request and has taken its time. -/
theorem outcome_dispatch_played {uri : Uri} (huri : g.Addressed request uri) (script : Script) :
    (g.dispatch none script.carrier client request ()).1.outcome =
      request.body.read.bind fun _ => script.map response := by
  have hbody : (g.unsigned client request uri).body = request.body := rfl
  rw [dispatch_eq, Exchange.under, handle_of_addressed huri, Course.outcome_bind, outcome_played, hbody,
    Eventual.bind_assoc]
  simp only [outcome_reply, Eventual.bind_now]

/-- The budget has three parts: the request is read, the backend takes its time, and its response is read. -/
theorem over_dispatch_played {uri : Uri} (huri : g.Addressed request uri) (script : Script) :
    (g.dispatch none script.carrier client request ()).1.over =
      request.body.ended.bind fun () => script.bind fun outcome => (response outcome).body.ended := by
  rw [Exchange.over, outcome_dispatch_played huri, Eventual.bind_assoc, Deadline.ended_eq_map_read,
    Eventual.map_bind]
  simp only [Eventual.map_bind]

/-- **A deadline cuts off what is not over by then, and nothing else.** An exchange that is not over by the
deadline is answered at the deadline with its message. One that is over by then is answered when it is over:
with the very response and all of its chunks as one, or as a failure where the body has broken off. No later
deadline changes this, and a response with a known body comes through as it is, whatever its status. Moments
are whole milliseconds, so these are what counts of a deadline. -/
theorem dispatch_by_deadline (g : Gateway) (d : Deadline) (carrier : Carrier σ)
    (client : Option IpAddress) (request : Request) (memory : σ) :
    let free := (g.dispatch none carrier client request memory).1
    let answer (d : Deadline) := (g.dispatch (some d) carrier client request memory).1.outcome
    let limit := d.duration.millis
    (¬ free.over.ArrivesBy limit →
      ∃ late, answer d = .after limit late ∧ late.Says 503 d.message) ∧
    (∀ head response wait, free.outcome = .after head response →
      let moment := head + (response.body.span + wait)
      moment ≤ limit →
        (response.body.finish = .after wait (.ok ()) →
          answer d = .after moment { response with body := .ofBytes response.body.content }) ∧
        ∀ cause, response.body.finish = .after wait (.error cause) →
          ∃ failure, answer d = .after moment failure ∧ failure.Says 502 cause.message) ∧
    (free.over.ArrivesBy limit → ∀ later : Deadline, limit ≤ later.duration.millis →
      answer later = answer d) ∧
    ∀ head response bytes, free.outcome = .after head response → response.body = .ofBytes bytes →
      head ≤ limit → answer d = free.outcome := by
  intro free answer limit
  have hanswer : ∀ d : Deadline, answer d = (d.run free).outcome := by
    intro d
    simp only [answer, free, dispatch_eq, Exchange.under]
  refine ⟨?_, ?_, ?_, ?_⟩
  · intro hover
    rw [hanswer, Deadline.outcome_run_of_not_over hover]
    exact ⟨_, rfl, Response.says_ofText _ _⟩
  · intro head response wait hfree moment hin
    have hover : ∀ ended, response.body.finish = .after wait ended → free.over.ArrivesBy limit := by
      intro ended hfinish
      rw [Exchange.over_of_ends hfree hfinish]
      exact Eventual.arrivesBy_after.mpr hin
    constructor
    · intro hfinish
      rw [hanswer, Deadline.outcome_run_of_over (hover _ hfinish), hfree, Eventual.bind, Body.read, hfinish]
      rfl
    · intro cause hfinish
      rw [hanswer, Deadline.outcome_run_of_over (hover _ hfinish), hfree, Eventual.bind, Body.read, hfinish]
      exact ⟨_, rfl, Response.says_ofText _ _⟩
  · intro hover later hlater
    have hoverLater : free.over.ArrivesBy later.duration.millis := by
      obtain ⟨ms, value, harrives, hms⟩ := hover
      exact ⟨ms, value, harrives, Nat.le_trans hms hlater⟩
    rw [hanswer, hanswer, Deadline.outcome_run_of_over hover, Deadline.outcome_run_of_over hoverLater]
  · intro head response bytes hfree hbody hhead
    have hread : response.body.read = .now (.ok bytes) := by
      rw [hbody, Body.read_ofBytes]
    have hover : free.over.ArrivesBy limit := by
      rw [Exchange.over, hfree, Eventual.bind, Deadline.ended_eq_map_read, hread]
      exact Eventual.arrivesBy_after.mpr hhead
    rw [hanswer, Deadline.outcome_run_of_over hover, hfree, Eventual.bind, hread]
    change Eventual.after head { response with body := .ofBytes bytes } = _
    rw [← hbody]

/-- The request takes two, the backend five and the response three milliseconds. -/
theorem dispatch_by_deadline_exact :
    let g := (new ⟨.http, "h", "", none⟩ "").1
    let request : Request :=
      ⟨⟨.get, ⟨none, none, "/", none⟩, .http11, .empty⟩, Body.ofChunks [(2, [1])]⟩
    let reply : Response := ⟨.ok, .http11, .empty, Body.ofChunks [(1, [65]), (2, [66])]⟩
    let script : Script := .after 5 (.ok reply)
    let answer (ms : Nat) :=
      (g.dispatch (some ⟨.ofMillis ms, "late"⟩) script.carrier none request ()).1.outcome
    (∃ late, answer 9 = .after 9 late ∧ late.Says 503 "late") ∧
      answer 10 = .after 10 { reply with body := .ofBytes [65, 66] } ∧ answer 11 = answer 10 := by
  intro g request reply script answer
  have hpath : g.backend.pathAndQuery request.uri = "/" := by decide
  have hbuild : Uri.build "http" "h" "/" = .ok ⟨some "http", some "h", "/", none⟩ := by rfl
  have huri : g.Addressed request ⟨some "http", some "h", "/", none⟩ := by
    rw [Addressed, hpath]
    exact ⟨by decide, hbuild⟩
  have hfree : (g.dispatch none script.carrier none request ()).1.outcome = .after 7 reply :=
    outcome_dispatch_played huri script
  have hover : (g.dispatch none script.carrier none request ()).1.over = .after 10 () :=
    over_dispatch_played huri script
  refine ⟨?_, ?_, ?_⟩
  · refine (dispatch_by_deadline g ⟨.ofMillis 9, "late"⟩ script.carrier none request ()).1 ?_
    rw [hover, Eventual.arrivesBy_after]
    decide
  · exact ((dispatch_by_deadline g ⟨.ofMillis 10, "late"⟩ script.carrier none request ()).2.1 7 reply 0
      hfree (by decide)).1 rfl
  · refine (dispatch_by_deadline g ⟨.ofMillis 10, "late"⟩ script.carrier none request ()).2.2.1 ?_
      ⟨.ofMillis 11, "late"⟩ (by decide)
    rw [hover, Eventual.arrivesBy_after]
    decide

end Gateway

end SigningProxy
