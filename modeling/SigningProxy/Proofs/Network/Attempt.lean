import SigningProxy.Network.Attempt
import SigningProxy.Proofs.Time.Moments

/-!
# What comes of an attempt

However often it is looked whether a connection is there, what comes of an attempt is what the bounded
connector makes of it, at its moment. At any time an attempt has an outlook, which is what is still to come of
it; no turn changes the outlook, and nothing that is due has been passed by (`Sound`).
-/

namespace SigningProxy.Attempt

variable {ε α : Type} {limit : Duration} {late : ε} {c : Connector ε α} {uri : Uri}
variable {expected : Eventual (Except ε α)} {a next : Attempt ε α}

/-- What is still to come of an attempt. -/
def outlook (limit : Duration) (late : ε) (c : Connector ε α) (uri : Uri) (a : Attempt ε α) :
    Eventual (Except ε α) :=
  match a.stage with
  | .asked => ((c.bounded limit late).request uri).delay a.now
  | .connecting since deadline =>
    let connection := (c.connect uri).delay since
    deadline.elim connection (connection.within · (.error late))
  | .ended moment result => .after moment result

/-! ### What a look can see -/

theorem look?_cases (hnext : a.look? limit late c uri = some next) :
    (∃ result, next = { a with stage := .ended a.now result } ∧
      ((∃ cause, a.stage = .asked ∧ c.ready = .error cause ∧ result = .error cause) ∨
        (∃ since deadline, a.stage = .connecting since deadline ∧
          ((c.connect uri).delay since).arrived? a.now = some result) ∨
        ∃ since deadline, a.stage = .connecting since (some deadline) ∧ deadline ≤ a.now ∧
          ((c.connect uri).delay since).arrived? a.now = none ∧ result = .error late)) ∨
      (a.stage = .asked ∧ c.ready = .ok () ∧
        next = { a with
          stage := .connecting a.now (if uri.isSecure then some (a.now + limit.millis) else none) }) := by
  rw [look?] at hnext
  split at hnext
  · next hstage =>
    split at hnext
    · next cause hready =>
      cases hnext
      exact .inl ⟨_, rfl, .inl ⟨cause, hstage, hready, rfl⟩⟩
    · next hready =>
      cases hnext
      exact .inr ⟨hstage, hready, rfl⟩
  · next since deadline hstage =>
    split at hnext
    · next result harrived =>
      cases hnext
      exact .inl ⟨result, rfl, .inr (.inl ⟨since, deadline, hstage, harrived⟩)⟩
    · next harrived =>
      obtain ⟨hdue, heq⟩ := Option.ite_none_right_eq_some.mp hnext
      cases heq
      obtain ⟨deadline, rfl, hle⟩ := (Option.any_eq_true _ _).mp hdue
      exact .inl ⟨_, rfl, .inr (.inr ⟨since, deadline, hstage, of_decide_eq_true hle, harrived, rfl⟩)⟩
  · cases hnext

theorem look?_eq_none (hidle : a.look? limit late c uri = none) :
    (∃ moment result, a.stage = .ended moment result) ∨
      ∃ since deadline, a.stage = .connecting since deadline ∧
        ((c.connect uri).delay since).arrived? a.now = none ∧ ∀ d ∈ deadline, a.now < d := by
  rw [look?] at hidle
  split at hidle
  · split at hidle <;> cases hidle
  · next since deadline hstage =>
    split at hidle
    · cases hidle
    · next harrived =>
      refine .inr ⟨since, deadline, hstage, harrived, ?_⟩
      rintro d rfl
      simpa using hidle
  · next moment result hstage => exact .inl ⟨moment, result, hstage⟩

/-! ### What every run keeps -/

/-- The outlook is the expected one, and nothing that is due has been passed by. -/
structure Sound (limit : Duration) (late : ε) (c : Connector ε α) (uri : Uri)
    (expected : Eventual (Except ε α)) (a : Attempt ε α) : Prop where
  same : a.outlook limit late c uri = expected
  ended : ∀ moment result, a.stage = .ended moment result → moment ≤ a.now
  waiting : (∀ moment result, a.stage ≠ .ended moment result) → expected.NotBefore a.now

theorem sound_start (limit : Duration) (late : ε) (c : Connector ε α) (uri : Uri) (moment : Nat) :
    Sound limit late c uri (((c.bounded limit late).request uri).delay moment) (start moment) where
  same := rfl
  ended := nofun
  waiting := fun _ => Eventual.notBefore_delay _ _

/-- What is due at the moment of a look ends the attempt with it. -/
theorem Sound.of_due (hsound : Sound limit late c uri expected a) {result : Except ε α}
    (hdue : a.outlook limit late c uri = .after a.now result) :
    Sound limit late c uri expected { a with stage := .ended a.now result } where
  same := hdue.symm.trans hsound.same
  ended := by
    intro moment result heq
    cases heq
    exact Nat.le_refl _
  waiting := fun hopen => absurd rfl (hopen _ _)

theorem outlook_asked (hstage : a.stage = .asked) :
    a.outlook limit late c uri = ((c.bounded limit late).request uri).delay a.now := by
  rw [outlook, hstage]

/-- A connection that has arrived is what is to come, if nothing that is due has been passed by. -/
theorem outlook_of_arrived {since : Nat} {deadline : Option Nat} {result : Except ε α}
    (hstage : a.stage = .connecting since deadline) (hwaiting : (a.outlook limit late c uri).NotBefore a.now)
    (harrived : ((c.connect uri).delay since).arrived? a.now = some result) :
    a.outlook limit late c uri = .after a.now result := by
  rw [outlook, hstage] at hwaiting ⊢
  cases deadline with
  | none => exact Eventual.eq_of_arrived? hwaiting harrived
  | some deadline => exact Eventual.within_of_arrived? hwaiting harrived

theorem outlook_of_late {since deadline : Nat} (hstage : a.stage = .connecting since (some deadline))
    (hwaiting : (a.outlook limit late c uri).NotBefore a.now) (hdue : deadline ≤ a.now)
    (harrived : ((c.connect uri).delay since).arrived? a.now = none) :
    a.outlook limit late c uri = .after a.now (.error late) := by
  rw [outlook, hstage] at hwaiting ⊢
  exact Eventual.within_of_not_arrived? hwaiting harrived hdue

/-- Asking the connector sets the clock, and what is to come stays the same. -/
theorem outlook_connecting (hready : c.ready = .ok ()) (moment : Nat) :
    outlook limit late c uri ⟨moment,
      .connecting moment (if uri.isSecure then some (moment + limit.millis) else none)⟩ =
      ((c.bounded limit late).request uri).delay moment := by
  rw [Connector.request_of_ready (Connector.ready_bounded.trans hready)]
  cases hsecure : uri.isSecure with
  | true =>
      rw [Connector.connect_bounded_of_secure hsecure, Eventual.delay_within]
      rfl
  | false =>
      rw [Connector.connect_bounded_of_open hsecure]
      rfl

theorem Sound.look (hsound : Sound limit late c uri expected a) (hnext : a.look? limit late c uri = some next) :
    Sound limit late c uri expected next := by
  obtain ⟨result, rfl, hdue⟩ | ⟨hstage, hready, rfl⟩ := look?_cases hnext
  · apply hsound.of_due
    have hwaiting := hsound.waiting
    rw [← hsound.same] at hwaiting
    obtain ⟨cause, hstage, hready, rfl⟩ | ⟨since, deadline, hstage, harrived⟩ |
      ⟨since, deadline, hstage, hlate, harrived, rfl⟩ := hdue
    · rw [outlook_asked hstage, Connector.request_of_refused (Connector.ready_bounded.trans hready)]
      rfl
    · exact outlook_of_arrived hstage (hwaiting (by simp [hstage])) harrived
    · exact outlook_of_late hstage (hwaiting (by simp [hstage])) hlate harrived
  · have hsame := (outlook_connecting hready a.now).trans
      ((outlook_asked hstage).symm.trans hsound.same)
    exact ⟨hsame, nofun, fun _ => hsound.waiting (by simp [hstage])⟩

theorem outlook_ended {moment : Nat} {result : Except ε α} (hstage : a.stage = .ended moment result) :
    a.outlook limit late c uri = .after moment result := by
  rw [outlook, hstage]

theorem outlook_later (hstage : a.stage ≠ .asked) (moment : Nat) :
    outlook limit late c uri { a with now := moment } = a.outlook limit late c uri := by
  rcases a with ⟨now, _ | _ | _⟩
  · exact absurd rfl hstage
  · rfl
  · rfl

theorem Sound.pass (hsound : Sound limit late c uri expected a) (hidle : a.look? limit late c uri = none) :
    Sound limit late c uri expected { a with now := a.now + 1 } := by
  have houtlook := hsound.same
  obtain ⟨moment, result, hstage⟩ | ⟨since, deadline, hstage, harrived, hclock⟩ := look?_eq_none hidle
  · refine ⟨(outlook_later (by simp [hstage]) _).trans houtlook, ?_, ?_⟩
    · exact fun moment result hended => Nat.le_succ_of_le (hsound.ended moment result hended)
    · exact fun hopen => absurd hstage (hopen moment result)
  · refine ⟨(outlook_later (by simp [hstage]) _).trans houtlook, ?_, fun _ => ?_⟩
    · intro moment result hended
      cases hstage.symm.trans hended
    · -- Neither the connection nor the limit is there yet.
      have hlater := Eventual.arrived?_eq_none.mp harrived
      rw [← houtlook, outlook, hstage]
      cases deadline with
      | none => exact hlater
      | some deadline => exact Eventual.notBefore_within_iff.mpr ⟨hlater, hclock deadline rfl⟩

theorem Sound.step (hsound : Sound limit late c uri expected a) (turn : Turn) :
    Sound limit late c uri expected (a.step limit late c uri turn) := by
  cases turn with
  | look =>
      rw [Attempt.step]
      cases hnext : a.look? limit late c uri with
      | none => exact hsound
      | some next => exact hsound.look hnext
  | pass =>
      rw [Attempt.step]
      cases hidle : a.look? limit late c uri with
      | none => exact hsound.pass hidle
      | some next => exact hsound

theorem Sound.run (hsound : Sound limit late c uri expected a) (turns : List Turn) :
    Sound limit late c uri expected (a.run limit late c uri turns) := by
  induction turns generalizing a with
  | nil => exact hsound
  | cons turn turns ih => exact ih (hsound.step turn)

/-! ### Every run goes on -/

/-- How much there can be to do before time passes. -/
def rank (a : Attempt ε α) : Nat :=
  match a.stage with
  | .asked => 2
  | .connecting _ _ => 1
  | .ended _ _ => 0

theorem rank_of_look (hnext : a.look? limit late c uri = some next) :
    next.now = a.now ∧ next.rank < a.rank := by
  obtain ⟨result, rfl, ⟨_, hstage, -⟩ | ⟨_, _, hstage, -⟩ | ⟨_, _, hstage, -⟩⟩ | ⟨hstage, -, rfl⟩ :=
    look?_cases hnext
  all_goals exact ⟨rfl, by simp [rank, hstage]⟩

theorem exists_beyond (limit : Duration) (late : ε) (c : Connector ε α) (uri : Uri) (a : Attempt ε α)
    (moment : Nat) : ∃ turns, moment < (a.run limit late c uri turns).now := by
  refine exists_run_beyond (Attempt.step limit late c uri) Attempt.now rank ?_ a moment
  intro a
  cases hlook : a.look? limit late c uri with
  | some next =>
      refine .inl ⟨.look, ?_⟩
      rw [Attempt.step, hlook]
      exact rank_of_look hlook
  | none =>
      refine .inr ⟨.pass, ?_⟩
      rw [Attempt.step, hlook]
      rfl

/-! ### What a run shows -/

/-- What can be seen at any time: the outcome at its moment, not before it and not later. -/
structure Shows (expected : Eventual (Except ε α)) (a : Attempt ε α) : Prop where
  ended : ∀ moment result, a.stage = .ended moment result →
    moment ≤ a.now ∧ expected = .after moment result
  due : ∀ moment result, expected = .after moment result → moment < a.now →
    a.stage = .ended moment result

theorem Sound.shows (hsound : Sound limit late c uri expected a) : Shows expected a where
  ended := by
    intro moment result hstage
    exact ⟨hsound.ended moment result hstage, hsound.same.symm.trans (outlook_ended hstage)⟩
  due := by
    intro moment result hexpected hlt
    cases hstage : a.stage with
    | ended moment' result' =>
        cases hexpected.symm.trans (hsound.same.symm.trans (outlook_ended hstage))
        rfl
    | _ =>
        have hge := hsound.waiting (by simp [hstage]) moment result hexpected
        omega

end SigningProxy.Attempt
