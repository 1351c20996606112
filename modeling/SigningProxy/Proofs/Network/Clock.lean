import SigningProxy.Proofs.Network.Race

/-!
# When an answer is too late

Where the time for an answer is limited, what comes of an exchange is what the clock says that starts when the
upload is over. Nothing else matters: not how slow the upload is, not whether it breaks off, and not in which
order the two tasks take their turns.
-/

namespace SigningProxy

namespace Race

variable {limit : Nat} {answer : Eventual (Except ClientError Response)} {b : Body} {r : Race}

/-! ### What a run shows -/

theorem course_start (b : Body) :
    (start b).course = ⟨if b.isOver then [] else b.pump.events, b.watch.2⟩ := by
  rw [course, left, start, Body.watch]
  cases b.isOver with
  | true => rfl
  | false => rw [Course.delay_zero]; rfl

/-- What can be seen at any time: chunks that have been handed on in their order, and in the end the body to be
sent; the signal when the upload is over; and the outcome at its moment, not before it and not later. -/
structure Shows (source : Body) (outcome : Eventual Outcome) (r : Race) : Prop where
  chunks : (Body.ofPieces 0 r.pieces).chunks <+: source.chunks
  whole : r.signal ≠ none → source.isOver = false → Body.ofPieces 0 r.pieces = source.watch.1
  closed : r.signal ≠ none → source.written.ArrivesBy r.now
  unclosed : r.signal = none → source.written.NotBefore r.now
  returned : ∀ moment told, r.wait = .returned moment told → moment ≤ r.now ∧ outcome = .after moment told
  due : ∀ moment told, outcome = .after moment told → moment < r.now → r.wait = .returned moment told

theorem Sound.events (hsound : Sound limit answer b r) :
    r.pieces <+: (if b.isOver then [] else b.pump.events) ∧
      (r.signal ≠ none → r.pieces = if b.isOver then [] else b.pump.events) := by
  have hevents : r.course.events = if b.isOver then [] else b.pump.events := by
    rw [hsound.course, course_start]
  rw [← hevents, Race.course]
  cases hsignal : r.signal with
  | none => exact ⟨List.prefix_append _ _, fun hgiven => absurd rfl hgiven⟩
  | some signal => exact ⟨List.prefix_rfl, fun _ => rfl⟩

theorem Sound.upload (hsound : Sound limit answer b r) : r.course.outcome = b.watch.2 := by
  rw [hsound.course, course_start]

theorem Sound.written (hsound : Sound limit answer b r) :
    b.written = r.course.outcome.map fun _ => () := by
  rw [hsound.upload, Body.watch_snd]

theorem Sound.chunks (hsound : Sound limit answer b r) :
    (Body.ofPieces 0 r.pieces).chunks <+: b.chunks := by
  obtain ⟨rest, hrest⟩ := hsound.events.1
  have hprefix := Body.chunks_ofPieces_append 0 r.pieces rest
  rw [hrest] at hprefix
  cases hover : b.isOver with
  | true =>
      rw [hover] at hprefix
      exact hprefix.trans List.nil_prefix
  | false =>
      rw [hover, if_neg Bool.false_ne_true] at hprefix
      have hpiped := Body.ofPieces_pump b 0
      rw [Course.delay_zero] at hpiped
      rwa [hpiped] at hprefix

theorem Sound.returned (hsound : Sound limit answer b r) {moment : Nat} {told : Outcome}
    (hwait : r.wait = .returned moment told) :
    moment ≤ r.now ∧ clocked limit b.watch.2 answer = .after moment told := by
  rw [← hsound.upload]
  exact hsound.of_returned hwait

/-- As long as the outcome is waited for, it is still to come. -/
theorem Sound.clocked_notBefore (hsound : Sound limit answer b r)
    (hwait : ∀ moment told, r.wait ≠ .returned moment told) :
    (clocked limit b.watch.2 answer).NotBefore r.now := by
  rw [← hsound.upload]
  exact notBefore_clocked (hsound.answer_notBefore hwait) fun _ _ => hsound.now_le hwait

theorem Sound.shows (hsound : Sound limit answer b r) : Shows b (clocked limit b.watch.2 answer) r where
  chunks := hsound.chunks
  whole := by
    intro hgiven hover
    rw [hsound.events.2 hgiven, Body.watch, hover]
    rfl
  closed := by
    intro hgiven
    obtain ⟨signal, hsignal⟩ := Option.ne_none_iff_exists'.mp hgiven
    rw [hsound.written, Race.course, hsignal]
    exact Eventual.arrivesBy_after.mpr hsound.since
  unclosed := by
    intro hsignal
    rw [hsound.written, Race.course, hsignal]
    exact (hsound.left hsignal).outcome.map _
  returned := fun _ _ => hsound.returned
  due := by
    intro moment told hclocked hlt
    cases hwait : r.wait with
    | returned moment' told' =>
        cases hclocked.symm.trans (hsound.returned hwait).2
        rfl
    | _ =>
        have hopen : ∀ moment told, r.wait ≠ .returned moment told := by
          intro moment told hreturned
          cases hwait.symm.trans hreturned
        have hge := hsound.clocked_notBefore hopen moment told hclocked
        omega

/-! ### The outcome by the moment of the upload -/

theorem clocked_watch_of_arrivesBy
    (harrives : ∀ written, b.written = .after written () → answer.ArrivesBy (written + limit)) :
    clocked limit b.watch.2 answer = answer.map (·.mapError .client) := by
  have hwritten := b.watch_snd
  cases hupload : b.watch.2 with
  | after written signal =>
      rw [hupload] at hwritten
      exact Eventual.within_of_arrivesBy (Eventual.arrivesBy_map.mpr (harrives written hwritten.symm)) _
  | never => rfl

theorem clocked_watch_of_late {written : Nat} (hwritten : b.written = .after written ())
    (hlate : ¬ answer.ArrivesBy (written + limit)) :
    clocked limit b.watch.2 answer = .after (written + limit) (.error .headerTimeout) := by
  rw [← b.watch_snd] at hwritten
  cases hupload : b.watch.2 with
  | after written' signal =>
      rw [hupload] at hwritten
      cases hwritten
      exact Eventual.within_of_not_arrivesBy (mt Eventual.arrivesBy_map.mp hlate) _
  | never =>
      rw [hupload] at hwritten
      cases hwritten

/-- The limit is never told while the upload is not over. -/
theorem written_of_clocked {moment : Nat}
    (hmoment : clocked limit b.watch.2 answer = .after moment (.error .headerTimeout)) :
    ∃ written, b.written = .after written () ∧ moment = written + limit := by
  by_cases harrives : ∀ written, b.written = .after written () → answer.ArrivesBy (written + limit)
  · -- What the client says is never that the limit has passed.
    rw [clocked_watch_of_arrivesBy harrives] at hmoment
    cases answer with
    | after ms result =>
        cases result with
        | ok response => cases hmoment
        | error cause => cases hmoment
    | never => cases hmoment
  · obtain ⟨written, hnot⟩ := Classical.not_forall.mp harrives
    obtain ⟨hwritten, hlate⟩ := Classical.not_imp.mp hnot
    cases (clocked_watch_of_late hwritten hlate).symm.trans hmoment
    exact ⟨written, hwritten, rfl⟩

end Race

namespace Network

variable {n : Network} {limit : Duration}

theorem outcome_exchange (hlimit : n.timeouts.header = some limit)
    (send : Request → Exchange (Except ClientError Response)) (request : Request) :
    (n.exchange send request).outcome = Race.clocked limit.millis request.body.watch.2
      (send { request with body := request.body.watch.1 }).outcome := by
  have hcarried := outcome_carried (send { request with body := request.body.watch.1 })
  rw [exchange, hlimit]
  dsimp only
  cases request.body.watch.2 with
  | after written signal =>
      rw [awaitHeader, Course.outcome_within rfl, hcarried]
      rfl
  | never => exact hcarried

/-- **The clock for an answer starts when the upload is over.** An answer that is there by the limit after that
moment comes back as it is, and so does any answer if the upload is never over; otherwise the limit comes back,
at its moment. The client is sent the chunks that were given, and behind them the end that was given or a failure,
unless it is only the fields behind the chunks that fail to come: then what is sent ends as if there were none.
In whatever order the turns are taken, this is what comes of them, at its moment. -/
theorem answered_by_clock (hlimit : n.timeouts.header = some limit)
    (send : Request → Exchange (Except ClientError Response)) (request : Request) :
    let body := request.body.watch.1
    let upload := request.body.written
    let answer := (send { request with body }).outcome
    let outcome := (n.exchange send request).outcome
    (body.chunks = request.body.chunks ∧ (request.body.Conveys body ↔ ¬ request.body.FailsBehind) ∧
        (request.body.FailsBehind → ∃ wait cause, request.body.closing = .after wait (.error cause) ∧
          body.closing = .after wait (.ok .empty))) ∧
      ((∀ written, upload = .after written () → answer.ArrivesBy (written + limit.millis)) →
        outcome = answer.map (·.mapError .client)) ∧
      (∀ written, upload = .after written () → ¬ answer.ArrivesBy (written + limit.millis) →
        outcome = .after (written + limit.millis) (.error .headerTimeout)) ∧
      (∀ moment, outcome = .after moment (.error .headerTimeout) →
        ∃ written, upload = .after written () ∧ moment = written + limit.millis) ∧
      (∀ turns, let race := (Race.start request.body).run limit.millis answer turns
        race.Shows request.body outcome ∧ ∀ moment told, outcome = .after moment told →
          ∃ more, (race.run limit.millis answer more).wait = .returned moment told) ∧
      ∀ host, send = Client.send (n.connector host) →
        request.uri.authority.elim (.ok ()) checkPort = .ok () →
        (n.carrier host request ()).1.outcome = outcome := by
  intro body upload answer outcome
  have houtcome : outcome = Race.clocked limit.millis request.body.watch.2 answer :=
    outcome_exchange hlimit send request
  refine ⟨?_, ?_, ?_, ?_, ?_, ?_⟩
  · have hbody : body = request.body.relayed := request.body.watch_fst
    refine ⟨?_, Body.conveys_watch_iff, ?_⟩
    · rw [hbody]
      rfl
    · rw [hbody]
      exact Body.closing_of_failsBehind
  · intro harrives
    exact houtcome.trans (Race.clocked_watch_of_arrivesBy harrives)
  · intro written hwritten hlate
    exact houtcome.trans (Race.clocked_watch_of_late hwritten hlate)
  · intro moment hmoment
    exact Race.written_of_clocked (houtcome.symm.trans hmoment)
  · intro turns race
    have hsound : Race.Sound limit.millis answer request.body race :=
      (Race.sound_start limit.millis answer request.body).run turns
    rw [houtcome]
    refine ⟨hsound.shows, ?_⟩
    intro moment told htold
    obtain ⟨more, hmore⟩ := Race.exists_beyond limit.millis answer race moment
    exact ⟨more, (hsound.run more).shows.due moment told htold hmore⟩
  · rintro host rfl hport
    exact outcome_carrier hport

/-- The upload takes longer than the limit, and the answer is there in time. -/
theorem answered_by_clock_slow :
    let n : Network := ⟨{ Timeouts.standard with header := some (.ofMillis 250) }, .ofSeconds 40, rfl⟩
    let request : Request :=
      ⟨⟨⟨"POST", by decide⟩, ⟨some "http", some "h", "/up", none⟩, .http11, .empty⟩,
        Body.ofChunks [(200, [97]), (200, [98])]⟩
    let reply : Response := ⟨.ok, .http11, .empty, .ofString "ok"⟩
    let send (request : Request) : Exchange (Except ClientError Response) :=
      Course.await (.after (request.body.span + 100) (.ok reply))
    n.timeouts.header = some (.ofMillis 250) ∧ request.body.written = .after 400 () ∧
      (n.exchange send request).outcome = .after 500 (.ok reply) := by
  intro n request reply send
  have hlimit : n.timeouts.header = some (.ofMillis 250) := rfl
  obtain ⟨-, hintime, -⟩ := answered_by_clock hlimit send request
  have houtcome := hintime fun written hwritten => by
    cases hwritten
    exact Eventual.arrivesBy_after.mpr (by decide)
  exact ⟨hlimit, rfl, houtcome⟩

end Network

end SigningProxy
