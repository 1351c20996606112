import SigningProxy.Network.Race
import SigningProxy.Proofs.Network.Transport
import SigningProxy.Proofs.Network.Upload

/-!
# The clock for the answer

However the two tasks take their turns, the piping follows its one course, and so the upload is over at one
moment and what is handed on is the body (`course_of_handOn`). The clock starts then: an answer that is there by
the limit after that moment is returned, and otherwise the limit is. The invariant is `Sound`: nothing that is due
has been passed by, because time passes only when there is nothing to do. Every run goes on, since between two
moments there is only so much to do (`rank`).
-/

namespace SigningProxy

variable {α ε : Type}

/-- Nothing happens before the moment. -/
structure Course.NotBefore (moment : Nat) (c : Course ε α) : Prop where
  events : ∀ event ∈ c.events, moment ≤ event.1
  outcome : c.outcome.NotBefore moment

theorem Course.notBefore_delay (c : Course ε α) (moment : Nat) : (c.delay moment).NotBefore moment where
  events := by
    intro event hevent
    obtain ⟨event, -, rfl⟩ := List.mem_map.mp hevent
    exact Nat.le_add_right _ _
  outcome := c.outcome.notBefore_delay moment

theorem Course.NotBefore.mono {c : Course ε α} {moment later : Nat} (hlater : c.NotBefore later)
    (hle : moment ≤ later) : c.NotBefore moment where
  events := fun event hevent => Nat.le_trans hle (hlater.events event hevent)
  outcome := fun ms value heq => Nat.le_trans hle (hlater.outcome ms value heq)

namespace Race

variable {limit : Nat} {answer : Eventual (Except ClientError Response)} {r next : Race}

/-- The answer if it is there by the limit after the upload, and the limit otherwise. -/
def clocked (limit : Nat) (upload : Eventual Signal) (answer : Eventual (Except ClientError Response)) :
    Eventual Outcome :=
  let answered := answer.map (·.mapError .client)
  match upload with
  | .never => answered
  | .after written _ => answered.within (written + limit) (.error .headerTimeout)

theorem clocked_of_answer {upload : Eventual Signal} {moment : Nat} {result : Except ClientError Response}
    (hanswer : answer = .after moment result)
    (hupload : ∀ written signal, upload = .after written signal → moment ≤ written + limit) :
    clocked limit upload answer = .after moment (result.mapError .client) := by
  subst hanswer
  cases upload with
  | after written signal => exact if_pos (hupload written signal rfl)
  | never => rfl

theorem clocked_of_late {written : Nat} {signal : Signal} (hlate : answer.NotBefore (written + limit + 1)) :
    clocked limit (.after written signal) answer = .after (written + limit) (.error .headerTimeout) := by
  cases answer with
  | after ms result =>
      have hlt := hlate ms result rfl
      exact if_neg (by omega)
  | never => rfl

theorem notBefore_clocked {upload : Eventual Signal} {moment : Nat} (hanswer : answer.NotBefore moment)
    (hupload : ∀ written signal, upload = .after written signal → moment ≤ written + limit) :
    (clocked limit upload answer).NotBefore moment := by
  cases upload with
  | after written signal => exact Eventual.notBefore_within_iff.mpr ⟨hanswer.map _, hupload written signal rfl⟩
  | never => exact hanswer.map _

/-! ### What the turns can do -/

theorem handOn?_cases (hnext : r.handOn? = some next) :
    r.signal = none ∧
      ((∃ wait bytes rest, r.source.chunks = (wait, bytes) :: rest ∧ r.since + wait ≤ r.now ∧
          next = { r with
            source := { r.source with chunks := rest }
            since := r.now
            pieces := r.pieces ++ [(r.now, .chunk bytes)] }) ∨
        ∃ pieces signal, r.source.chunks = [] ∧
          (r.source.ending.delay r.since).arrived? r.now = some (pieces, signal) ∧
          next = { r with
            since := r.now
            pieces := r.pieces ++ pieces.map ((r.now, ·))
            signal := some signal }) := by
  rw [handOn?] at hnext
  split at hnext
  · cases hnext
  · next wait bytes rest hsignal hchunks =>
    obtain ⟨hdue, heq⟩ := Option.ite_none_right_eq_some.mp hnext
    cases heq
    exact ⟨hsignal, .inl ⟨wait, bytes, rest, hchunks, hdue, rfl⟩⟩
  · next hsignal hchunks =>
    obtain ⟨⟨pieces, signal⟩, harrived, rfl⟩ := Option.map_eq_some_iff.mp hnext
    exact ⟨hsignal, .inr ⟨pieces, signal, hchunks, harrived, rfl⟩⟩

theorem answered?_eq_some (hnext : r.answered? answer = some next) :
    ∃ result, answer.arrived? r.now = some result ∧
      next = { r with wait := .returned r.now (result.mapError .client) } := by
  obtain ⟨result, harrived, rfl⟩ := Option.map_eq_some_iff.mp hnext
  exact ⟨result, harrived, rfl⟩

theorem look?_cases {answerFirst : Bool} (hnext : r.look? limit answer answerFirst = some next) :
    (∃ result, (∀ moment outcome, r.wait ≠ .returned moment outcome) ∧ answer.arrived? r.now = some result ∧
        next = { r with wait := .returned r.now (result.mapError .client) }) ∨
      (∃ signal, r.wait = .either ∧ r.signal = some signal ∧
        next = { r with wait := .answer (r.now + limit) }) ∨
      ∃ deadline, r.wait = .answer deadline ∧ answer.arrived? r.now = none ∧ deadline ≤ r.now ∧
        next = { r with wait := .returned r.now (.error .headerTimeout) } := by
  rw [look?] at hnext
  split at hnext
  · next hwait =>
    -- Whichever is looked at first, one of the two has been seen.
    have hseen : r.answered? answer = some next ∨
        (r.signal.map fun _ => { r with wait := .answer (r.now + limit) }) = some next := by
      cases answerFirst with
      | true => exact (Option.or_eq_some_iff.mp hnext).imp_right And.right
      | false => exact ((Option.or_eq_some_iff.mp hnext).imp_right And.right).symm
    rcases hseen with hanswered | hwritten
    · obtain ⟨result, harrived, rfl⟩ := answered?_eq_some hanswered
      refine .inl ⟨result, ?_, harrived, rfl⟩
      rw [hwait]
      exact nofun
    · obtain ⟨signal, hsignal, rfl⟩ := Option.map_eq_some_iff.mp hwritten
      exact .inr (.inl ⟨signal, hwait, hsignal, rfl⟩)
  · next deadline hwait =>
    rcases Option.or_eq_some_iff.mp hnext with hanswered | ⟨hanswered, hlate⟩
    · obtain ⟨result, harrived, rfl⟩ := answered?_eq_some hanswered
      refine .inl ⟨result, ?_, harrived, rfl⟩
      rw [hwait]
      exact nofun
    · obtain ⟨hdue, heq⟩ := Option.ite_none_right_eq_some.mp hlate
      cases heq
      exact .inr (.inr ⟨deadline, hwait, Option.map_eq_none_iff.mp hanswered, hdue, rfl⟩)
  · cases hnext

theorem look?_eq_none (hidle : r.look? limit answer true = none) :
    (r.wait = .either ∧ answer.arrived? r.now = none ∧ r.signal = none) ∨
      (∃ deadline, r.wait = .answer deadline ∧ answer.arrived? r.now = none ∧ r.now < deadline) ∨
      ∃ moment outcome, r.wait = .returned moment outcome := by
  rw [look?] at hidle
  split at hidle
  · next hwait =>
    obtain ⟨hanswered, hwritten⟩ := Option.or_eq_none_iff.mp hidle
    exact .inl ⟨hwait, Option.map_eq_none_iff.mp hanswered, Option.map_eq_none_iff.mp hwritten⟩
  · next deadline hwait =>
    obtain ⟨hanswered, hlate⟩ := Option.or_eq_none_iff.mp hidle
    refine .inr (.inl ⟨deadline, hwait, Option.map_eq_none_iff.mp hanswered, ?_⟩)
    simpa using hlate
  · next moment outcome hwait => exact .inr (.inr ⟨moment, outcome, hwait⟩)

/-- A pass is one of time, or there was something to do. -/
theorem pass_cases (limit : Nat) (answer : Eventual (Except ClientError Response)) (r : Race) :
    r.pass limit answer = r ∨
      (r.handOn? = none ∧ r.look? limit answer true = none ∧
        r.pass limit answer = { r with now := r.now + 1 }) := by
  rw [pass]
  split
  · next hidle =>
    rw [Bool.and_eq_true, Option.isNone_iff_eq_none, Option.isNone_iff_eq_none] at hidle
    exact .inr ⟨hidle.1, hidle.2, rfl⟩
  · exact .inl rfl

/-! ### The course of the piping -/

/-- The piping that is left. -/
def left (r : Race) : Course Piece Signal := r.source.pump.delay r.since

/-- What has been piped and what is left, up to the signal. -/
def course (r : Race) : Course Piece Signal :=
  match r.signal with
  | some signal => ⟨r.pieces, .after r.since signal⟩
  | none => ⟨r.pieces ++ r.left.events, r.left.outcome⟩

theorem left_cons {wait : Nat} {bytes : List UInt8} {rest : List (Nat × List UInt8)}
    (hchunks : r.source.chunks = (wait, bytes) :: rest) :
    let later := ({ r.source with chunks := rest } : Body).pump.delay (r.since + wait)
    r.left = ⟨(r.since + wait, .chunk bytes) :: later.events, later.outcome⟩ := by
  have hsource : r.source = ⟨(wait, bytes) :: rest, r.source.finish, r.source.trailers⟩ := by
    rw [← hchunks]
  rw [left, hsource, Body.pump_cons, ← Course.delay_delay]
  rfl

theorem left_nil (hchunks : r.source.chunks = []) :
    r.left = match r.source.ending.delay r.since with
      | .after moment (pieces, signal) => ⟨pieces.map ((moment, ·)), .after moment signal⟩
      | .never => ⟨[], .never⟩ := by
  have hsource : r.source = ⟨[], r.source.finish, r.source.trailers⟩ := by
    rw [← hchunks]
  rw [left, hsource, Body.pump_nil]
  cases Body.ending ⟨[], r.source.finish, r.source.trailers⟩ with
  | after wait ending => simp [Course.delay, Eventual.delay, Function.comp_def]
  | never => rfl

theorem notBefore_left_cons {wait : Nat} {bytes : List UInt8} {rest : List (Nat × List UInt8)}
    (hchunks : r.source.chunks = (wait, bytes) :: rest) : r.left.NotBefore (r.since + wait) := by
  have hlater := Course.notBefore_delay ({ r.source with chunks := rest } : Body).pump (r.since + wait)
  rw [left_cons hchunks]
  refine ⟨?_, hlater.outcome⟩
  intro event hevent
  rcases List.mem_cons.mp hevent with rfl | hevent
  · exact Nat.le_refl _
  · exact hlater.events event hevent

theorem notBefore_left_nil {moment : Nat} (hchunks : r.source.chunks = [])
    (hending : (r.source.ending.delay r.since).NotBefore moment) : r.left.NotBefore moment := by
  rw [left_nil hchunks]
  cases hdelay : r.source.ending.delay r.since with
  | after later ending =>
      have hle := hending later ending hdelay
      constructor
      · intro event hevent
        obtain ⟨piece, -, rfl⟩ := List.mem_map.mp hevent
        exact hle
      · intro ms signal heq
        cases heq
        exact hle
  | never => exact ⟨nofun, nofun⟩

/-- A turn of the piping is the next part of its course, if it is not too late. -/
theorem course_of_handOn (hnext : r.handOn? = some next) (hleft : r.left.NotBefore r.now) :
    next.course = r.course ∧ next.left.NotBefore next.now := by
  obtain ⟨hsignal, ⟨wait, bytes, rest, hchunks, hdue, rfl⟩ | ⟨pieces, signal, hchunks, harrived, rfl⟩⟩ :=
    handOn?_cases hnext
  · have hcons := left_cons hchunks
    have hnow : r.now = r.since + wait := by
      have hge := hleft.events (r.since + wait, .chunk bytes) (by rw [hcons]; exact List.mem_cons_self)
      omega
    refine ⟨?_, Course.notBefore_delay _ _⟩
    simp only [course, hsignal, hcons]
    rw [left, ← hnow, List.append_assoc]
    rfl
  · have hnil := left_nil hchunks
    have hdue : r.source.ending.delay r.since = .after r.now (pieces, signal) := by
      refine Eventual.eq_of_arrived? ?_ harrived
      rintro moment ⟨pieces, signal⟩ heq
      rw [heq] at hnil
      exact hleft.outcome moment signal (by rw [hnil])
    rw [hdue] at hnil
    refine ⟨?_, Course.notBefore_delay _ _⟩
    simp only [course, hsignal, hnil]

theorem left_of_idle (hidle : r.handOn? = none) (hsignal : r.signal = none) :
    r.left.NotBefore (r.now + 1) := by
  rw [handOn?, hsignal] at hidle
  split at hidle
  · next heq => cases heq
  · next wait bytes rest _ hchunks =>
    have hdue : ¬ r.since + wait ≤ r.now := by simpa using hidle
    exact (notBefore_left_cons hchunks).mono (by omega)
  · next hchunks =>
    exact notBefore_left_nil hchunks (Eventual.arrived?_eq_none.mp (Option.map_eq_none_iff.mp hidle))

/-! ### What every run keeps -/

/-- What the task that waits can rely on. -/
inductive Awaits (limit : Nat) (answer : Eventual (Except ClientError Response)) (r : Race) : Wait → Prop
  | either (hanswer : answer.NotBefore r.now) (hsince : r.signal ≠ none → r.since = r.now) :
      Awaits limit answer r .either
  | answer {signal : Signal} {deadline : Nat} (hanswer : answer.NotBefore r.now)
      (hsignal : r.signal = some signal) (hclock : deadline = r.since + limit)
      (hdeadline : r.now ≤ deadline) : Awaits limit answer r (.answer deadline)
  | returned {moment : Nat} {outcome : Outcome} (hmoment : moment ≤ r.now)
      (hreturned : clocked limit r.course.outcome answer = .after moment outcome) :
      Awaits limit answer r (.returned moment outcome)

/-- Nothing that is due has been passed by. -/
structure Sound (limit : Nat) (answer : Eventual (Except ClientError Response)) (b : Body) (r : Race) :
    Prop where
  course : r.course = (start b).course
  since : r.since ≤ r.now
  left : r.signal = none → r.left.NotBefore r.now
  wait : Awaits limit answer r r.wait

variable {b : Body}

theorem sound_start (limit : Nat) (answer : Eventual (Except ClientError Response)) (b : Body) :
    Sound limit answer b (start b) where
  course := rfl
  since := Nat.le_refl 0
  left := fun _ => Course.notBefore_delay _ 0
  wait := .either (fun _ _ _ => Nat.zero_le _) fun _ => rfl

theorem Sound.of_either (hsound : Sound limit answer b r) (hwait : r.wait = .either) :
    answer.NotBefore r.now ∧ (r.signal ≠ none → r.since = r.now) := by
  have hawaits := hsound.wait
  rw [hwait] at hawaits
  cases hawaits with
  | either hanswer hsince => exact ⟨hanswer, hsince⟩

theorem Sound.of_answer (hsound : Sound limit answer b r) {deadline : Nat} (hwait : r.wait = .answer deadline) :
    answer.NotBefore r.now ∧ (∃ signal, r.signal = some signal) ∧ deadline = r.since + limit ∧
      r.now ≤ deadline := by
  have hawaits := hsound.wait
  rw [hwait] at hawaits
  cases hawaits with
  | answer hanswer hsignal hclock hdeadline => exact ⟨hanswer, ⟨_, hsignal⟩, hclock, hdeadline⟩

theorem Sound.of_returned (hsound : Sound limit answer b r) {moment : Nat} {outcome : Outcome}
    (hwait : r.wait = .returned moment outcome) :
    moment ≤ r.now ∧ clocked limit r.course.outcome answer = .after moment outcome := by
  have hawaits := hsound.wait
  rw [hwait] at hawaits
  cases hawaits with
  | returned hmoment hreturned => exact ⟨hmoment, hreturned⟩

/-- As long as it is waited, the upload is not over for longer than the limit. -/
theorem Sound.now_le (hsound : Sound limit answer b r)
    (hwait : ∀ moment outcome, r.wait ≠ .returned moment outcome) {written : Nat} {signal : Signal}
    (hupload : r.course.outcome = .after written signal) :
    r.now ≤ written + limit := by
  cases hsignal : r.signal with
  | none =>
      rw [Race.course, hsignal] at hupload
      have hge := (hsound.left hsignal).outcome written signal hupload
      omega
  | some signal =>
      rw [Race.course, hsignal] at hupload
      cases hupload
      cases hw : r.wait with
      | either =>
          have hnow := (hsound.of_either hw).2 (by rw [hsignal]; exact nofun)
          omega
      | answer deadline =>
          obtain ⟨-, -, hclock, hdeadline⟩ := hsound.of_answer hw
          omega
      | returned moment outcome => exact absurd hw (hwait moment outcome)

theorem Sound.answer_notBefore (hsound : Sound limit answer b r)
    (hwait : ∀ moment outcome, r.wait ≠ .returned moment outcome) : answer.NotBefore r.now := by
  cases hw : r.wait with
  | either => exact (hsound.of_either hw).1
  | answer deadline => exact (hsound.of_answer hw).1
  | returned moment outcome => exact absurd hw (hwait moment outcome)

theorem Sound.handOn (hsound : Sound limit answer b r) (hnext : r.handOn? = some next) :
    Sound limit answer b next := by
  have hsignal := (handOn?_cases hnext).1
  obtain ⟨hcourse, hleft⟩ := course_of_handOn hnext (hsound.left hsignal)
  have hkept : next.now = r.now ∧ next.since = r.now ∧ next.wait = r.wait := by
    obtain ⟨-, ⟨_, _, _, -, -, rfl⟩ | ⟨_, _, -, -, rfl⟩⟩ := handOn?_cases hnext
    · exact ⟨rfl, rfl, rfl⟩
    · exact ⟨rfl, rfl, rfl⟩
  obtain ⟨hnow, hsince, hwait⟩ := hkept
  refine ⟨hcourse.trans hsound.course, by omega, fun _ => hleft, ?_⟩
  rw [hwait]
  cases hw : r.wait with
  | either =>
      obtain ⟨hanswer, -⟩ := hsound.of_either hw
      exact .either (hnow ▸ hanswer) fun _ => hsince.trans hnow.symm
  | answer deadline =>
      -- Nothing is handed on once the signal is there.
      obtain ⟨-, ⟨signal, hgiven⟩, -⟩ := hsound.of_answer hw
      cases hsignal.symm.trans hgiven
  | returned moment outcome =>
      obtain ⟨hmoment, hreturned⟩ := hsound.of_returned hw
      exact .returned (hnow ▸ hmoment) (hcourse ▸ hreturned)

theorem Sound.look (hsound : Sound limit answer b r) {answerFirst : Bool}
    (hnext : r.look? limit answer answerFirst = some next) : Sound limit answer b next := by
  obtain ⟨result, hwait, harrived, rfl⟩ | ⟨signal, hwait, hsignal, rfl⟩ |
      ⟨deadline, hwait, harrived, hdue, rfl⟩ := look?_cases hnext
  · have hanswer := Eventual.eq_of_arrived? (hsound.answer_notBefore hwait) harrived
    refine ⟨hsound.course, hsound.since, hsound.left, .returned (Nat.le_refl r.now) ?_⟩
    exact clocked_of_answer hanswer fun _ _ hupload => hsound.now_le hwait hupload
  · obtain ⟨hanswer, hsince⟩ := hsound.of_either hwait
    have hnow := hsince (by rw [hsignal]; exact nofun)
    have hclock : r.now + limit = r.since + limit := by rw [hnow]
    exact ⟨hsound.course, hsound.since, hsound.left,
      .answer hanswer hsignal hclock (Nat.le_add_right _ _)⟩
  · obtain ⟨-, ⟨signal, hsignal⟩, hclock, hdeadline⟩ := hsound.of_answer hwait
    have hnow : r.now = r.since + limit := by omega
    have hlate := Eventual.arrived?_eq_none.mp harrived
    refine ⟨hsound.course, hsound.since, hsound.left, .returned (Nat.le_refl r.now) ?_⟩
    change clocked limit r.course.outcome answer = _
    rw [hnow] at hlate
    rw [Race.course, hsignal, hnow]
    exact clocked_of_late hlate

theorem Sound.pass (hsound : Sound limit answer b r) : Sound limit answer b (r.pass limit answer) := by
  obtain hsame | ⟨hidle, hlook, hpass⟩ := pass_cases limit answer r
  · rwa [hsame]
  · rw [hpass]
    refine ⟨hsound.course, Nat.le_succ_of_le hsound.since, fun hsignal => left_of_idle hidle hsignal, ?_⟩
    dsimp only
    obtain ⟨hwait, harrived, hsignal⟩ | ⟨deadline, hwait, harrived, hlt⟩ | ⟨moment, outcome, hwait⟩ :=
      look?_eq_none hlook
    · rw [hwait]
      exact .either (Eventual.arrived?_eq_none.mp harrived) fun hsome => absurd hsignal hsome
    · obtain ⟨-, ⟨signal, hsignal⟩, hclock, -⟩ := hsound.of_answer hwait
      rw [hwait]
      exact .answer (Eventual.arrived?_eq_none.mp harrived) hsignal hclock hlt
    · obtain ⟨hmoment, hreturned⟩ := hsound.of_returned hwait
      rw [hwait]
      exact .returned (Nat.le_succ_of_le hmoment) hreturned

theorem Sound.step (hsound : Sound limit answer b r) (turn : Turn) :
    Sound limit answer b (r.step limit answer turn) := by
  cases turn with
  | handOn =>
      rw [Race.step]
      cases hnext : r.handOn? with
      | none => exact hsound
      | some next => exact hsound.handOn hnext
  | look answerFirst =>
      rw [Race.step]
      cases hnext : r.look? limit answer answerFirst with
      | none => exact hsound
      | some next => exact hsound.look hnext
  | pass => exact hsound.pass

theorem Sound.run (hsound : Sound limit answer b r) (turns : List Turn) :
    Sound limit answer b (r.run limit answer turns) := by
  induction turns generalizing r with
  | nil => exact hsound
  | cons turn turns ih => exact ih (hsound.step turn)

/-! ### Every run goes on -/

/-- How much there can be to do before time passes. -/
def rank (r : Race) : Nat :=
  r.source.chunks.length + (if r.signal.isSome then 0 else 1) +
    match r.wait with
    | .either => 2
    | .answer _ => 1
    | .returned _ _ => 0

theorem rank_of_handOn (hnext : r.handOn? = some next) : next.now = r.now ∧ next.rank < r.rank := by
  obtain ⟨hsignal, ⟨wait, bytes, rest, hchunks, -, rfl⟩ | ⟨pieces, signal, hchunks, -, rfl⟩⟩ :=
    handOn?_cases hnext
  · refine ⟨rfl, ?_⟩
    simp only [rank, hchunks, List.length_cons]
    omega
  · refine ⟨rfl, ?_⟩
    simp only [rank, hchunks, hsignal, Option.isSome_some, Option.isSome_none, if_true]
    simp

theorem rank_of_look {answerFirst : Bool} (hnext : r.look? limit answer answerFirst = some next) :
    next.now = r.now ∧ next.rank < r.rank := by
  obtain ⟨result, hwait, -, rfl⟩ | ⟨signal, hwait, -, rfl⟩ | ⟨deadline, hwait, -, -, rfl⟩ :=
    look?_cases hnext
  · refine ⟨rfl, ?_⟩
    cases hw : r.wait with
    | either => simp [rank, hw]
    | answer deadline => simp [rank, hw]
    | returned moment outcome => exact absurd hw (hwait moment outcome)
  · exact ⟨rfl, by simp [rank, hwait]⟩
  · exact ⟨rfl, by simp [rank, hwait]⟩

theorem exists_beyond (limit : Nat) (answer : Eventual (Except ClientError Response)) (r : Race)
    (moment : Nat) : ∃ turns, moment < (r.run limit answer turns).now := by
  refine exists_run_beyond (Race.step limit answer) Race.now rank ?_ r moment
  intro r
  cases hhandOn : r.handOn? with
  | some next =>
      refine .inl ⟨.handOn, ?_⟩
      rw [Race.step, hhandOn]
      exact rank_of_handOn hhandOn
  | none =>
      cases hlook : r.look? limit answer true with
      | some next =>
          refine .inl ⟨.look true, ?_⟩
          rw [Race.step, hlook]
          exact rank_of_look hlook
      | none =>
          refine .inr ⟨.pass, ?_⟩
          rw [Race.step, Race.pass, hhandOn, hlook]
          rfl

end Race

end SigningProxy
