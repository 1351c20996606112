import SigningProxy.Proofs.Http.Parsed
import SigningProxy.Proofs.Network.Attempt
import SigningProxy.Proofs.Network.Transport

/-!
# What the limit on a handshake cuts off

Only encrypted connections are under a limit, and one that is there by the limit is never touched. The limit
that a network sets is the sum of two, one for dialling and one for the handshake, so that neither can use up
the time of the other.
-/

namespace SigningProxy

/-! ### Spans and moments -/

namespace Duration

/-- The last moment in a span. Moments are whole milliseconds, and a span may end between two of them. -/
structure LastMoment (d : Duration) (ms : Nat) : Prop where
  le : (ofMillis ms).nanos ≤ d.nanos
  lt : d.nanos < (ofMillis (ms + 1)).nanos

theorem ofMillis_le_iff {ms : Nat} {d : Duration} : (ofMillis ms).nanos ≤ d.nanos ↔ ms ≤ d.millis := by
  simp only [ofMillis, millis]
  omega

theorem lastMoment_iff {d : Duration} {ms : Nat} : d.LastMoment ms ↔ ms = d.millis := by
  constructor
  · rintro ⟨hle, hlt⟩
    rw [ofMillis_le_iff] at hle
    rw [← Nat.not_le, ofMillis_le_iff] at hlt
    omega
  · rintro rfl
    refine ⟨ofMillis_le_iff.mpr (Nat.le_refl _), Nat.not_le.mp ?_⟩
    rw [ofMillis_le_iff]
    omega

variable {a b sum : Duration}

theorem add?_eq_some (hfits : (⟨a.nanos + b.nanos⟩ : Duration).Fits) : a.add? b = some ⟨a.nanos + b.nanos⟩ :=
  if_pos hfits

theorem millis_add_le (hsum : a.add? b = some sum) : a.millis + b.millis ≤ sum.millis := by
  obtain ⟨-, heq⟩ := Option.ite_none_right_eq_some.mp hsum
  cases heq
  simp only [millis]
  omega

end Duration

/-- The value is there within the span. -/
def Eventual.ArrivesWithin {α : Type} (e : Eventual α) (d : Duration) : Prop :=
  ∃ ms value, e = .after ms value ∧ (Duration.ofMillis ms).nanos ≤ d.nanos

theorem Eventual.arrivesWithin_iff {α : Type} {e : Eventual α} {d : Duration} :
    e.ArrivesWithin d ↔ e.ArrivesBy d.millis := by
  simp only [ArrivesWithin, ArrivesBy, Duration.ofMillis_le_iff]

namespace Network

/-- A connection that is dialled and then shakes hands, each within its limit, comes within the budget. -/
theorem connect_of_phases {β : Type} (n : Network) (host : Host) {uri : Uri} {dial : Eventual β}
    {shake : β → Eventual (Except ConnectError Link)}
    (hphases : (host.connector n.timeouts).connect uri = dial.bind shake)
    (hdial : dial.ArrivesWithin n.timeouts.dial)
    (hshake : ∀ ms line, dial = .after ms line → (shake line).ArrivesWithin n.timeouts.handshake) :
    (n.connector host).connect uri = (host.connector n.timeouts).connect uri := by
  simp only [Eventual.arrivesWithin_iff] at hdial hshake
  cases hsecure : uri.isSecure with
  | true =>
      rw [connector, Connector.connect_bounded_of_secure hsecure, hphases]
      have hboth := Eventual.arrivesBy_bind hdial hshake
      exact Eventual.within_of_arrivesBy (hboth.mono (Duration.millis_add_le n.budget_eq)) _
  | false => exact Connector.connect_bounded_of_open hsecure

end Network

namespace Connector

variable {ε α : Type}

/-- **A limit cuts off encrypted connections that are late, and nothing else.** A connector that is not ready
says so as before. A connection that is not encrypted takes the time it takes. An encrypted one comes as it
would if it is there within the limit, and otherwise the limit is told, at its moment. However often an attempt
is looked at, this is what comes of it. Which connections are encrypted is read off the scheme as it stands; where
the address has been read from a text, its scheme may be written there in any case of its letters. The limit of a
network is that for dialling and that for the handshake together, and no connection is cut off of which both are
done within their own. -/
theorem bounded_cuts_late (c : Connector ε α) (limit : Duration) (late : ε) (uri : Uri) :
    let bounded := c.bounded limit late
    let inner := c.connect uri
    (bounded.ready = c.ready ∧
        ∀ cause, c.ready = .error cause → bounded.request uri = .now (.error cause)) ∧
      (uri.isSecure = false → bounded.connect uri = inner) ∧
      (uri.isSecure = true → inner.ArrivesWithin limit → bounded.connect uri = inner) ∧
      (uri.isSecure = true → ¬ inner.ArrivesWithin limit →
        ∃ moment, limit.LastMoment moment ∧ bounded.connect uri = .after moment (.error late)) ∧
      (∀ moment turns,
        let attempt := (Attempt.start moment).run limit late c uri turns
        let outcome := (bounded.request uri).delay moment
        attempt.Shows outcome ∧ ∀ ended result, outcome = .after ended result →
          ∃ more, (attempt.run limit late c uri more).stage = .ended ended result) ∧
      (∀ text, Uri.parse text = .ok uri → (uri.isSecure = true ↔ Uri.NamesSecure text)) ∧
      ∀ timeouts : Timeouts, (⟨timeouts.dial.nanos + timeouts.handshake.nanos⟩ : Duration).Fits →
        ∃ n, Network.ofTimeouts? timeouts = some n ∧
          n.budget.nanos = timeouts.dial.nanos + timeouts.handshake.nanos ∧
          ∀ host : Host,
            let dialler := host.connector timeouts
            n.connector host = dialler.bounded n.budget .handshakeTimeout ∧
              ∀ (β : Type) (dial : Eventual β) (shake : β → Eventual (Except ConnectError Link)),
                dialler.connect uri = dial.bind shake → dial.ArrivesWithin timeouts.dial →
                (∀ ms line, dial = .after ms line → (shake line).ArrivesWithin timeouts.handshake) →
                (n.connector host).connect uri = dialler.connect uri := by
  intro bounded inner
  refine ⟨⟨ready_bounded, ?_⟩, connect_bounded_of_open, ?_, ?_, ?_, ?_, ?_⟩
  · intro cause hready
    exact request_of_refused (ready_bounded.trans hready)
  · intro hsecure harrives
    rw [Eventual.arrivesWithin_iff] at harrives
    exact (connect_bounded_of_secure hsecure).trans (Eventual.within_of_arrivesBy harrives _)
  · intro hsecure hlate
    rw [Eventual.arrivesWithin_iff] at hlate
    refine ⟨limit.millis, Duration.lastMoment_iff.mpr rfl, ?_⟩
    exact (connect_bounded_of_secure hsecure).trans (Eventual.within_of_not_arrivesBy hlate _)
  · intro moment turns attempt outcome
    have hsound : Attempt.Sound limit late c uri outcome attempt :=
      (Attempt.sound_start limit late c uri moment).run turns
    refine ⟨hsound.shows, ?_⟩
    intro ended result houtcome
    obtain ⟨more, hmore⟩ := Attempt.exists_beyond limit late c uri attempt ended
    exact ⟨more, (hsound.run more).shows.due ended result houtcome hmore⟩
  · intro text hparse
    exact Uri.isSecure_iff_namesSecure hparse
  · intro timeouts hfits
    have hbudget : timeouts.connectBudget? = some _ := Duration.add?_eq_some hfits
    refine ⟨_, Network.ofTimeouts?_eq_some hbudget, rfl, ?_⟩
    intro host dialler
    refine ⟨rfl, ?_⟩
    intro β dial shake hphases hdial hshake
    exact Network.connect_of_phases ⟨timeouts, _, hbudget⟩ host hphases hdial hshake

/-- The connection takes ten milliseconds, which is the limit or one more than it. -/
theorem bounded_cuts_late_exact :
    let c : Connector ConnectError Unit := ⟨.ok (), fun _ => .after 10 (.ok ())⟩
    let uri : Uri := ⟨some "https", some "X", "/", none⟩
    let connection (ms : Nat) := (c.bounded (.ofMillis ms) .handshakeTimeout).connect uri
    Uri.parse "HTTPS://X" = .ok uri ∧ Uri.NamesSecure "HTTPS://X" ∧
      connection 10 = .after 10 (.ok ()) ∧ connection 9 = .after 9 (.error .handshakeTimeout) := by
  intro c uri connection
  have hparse : Uri.parse "HTTPS://X" = .ok uri := by rfl
  have hsecure : Uri.NamesSecure "HTTPS://X" := by rfl
  obtain ⟨-, -, hintime, -, -, hnames, -⟩ := bounded_cuts_late c (.ofMillis 10) .handshakeTimeout uri
  obtain ⟨-, -, -, hlate, -⟩ := bounded_cuts_late c (.ofMillis 9) .handshakeTimeout uri
  have huri : uri.isSecure = true := (hnames _ hparse).mpr hsecure
  have harrives {ms : Nat} : (c.connect uri).ArrivesWithin (.ofMillis ms) ↔
      10 ≤ (Duration.ofMillis ms).millis :=
    Eventual.arrivesWithin_iff.trans Eventual.arrivesBy_after
  obtain ⟨moment, hlast, hcut⟩ := hlate huri (mt harrives.mp (by decide))
  rw [Duration.lastMoment_iff.mp hlast] at hcut
  exact ⟨hparse, hsecure, hintime huri (harrives.mpr (by decide)), hcut⟩

/-- An address that is put together from its parts keeps the scheme as it is given. In capitals it is not the one of
encrypted connections, and a connection that takes a millisecond too long is not cut off. -/
theorem bounded_spares_capitals :
    let c : Connector ConnectError Unit := ⟨.ok (), fun _ => .after 10 (.ok ())⟩
    let uri : Uri := ⟨some "HTTPS", some "X", "/", none⟩
    let bounded := c.bounded (.ofMillis 9) .handshakeTimeout
    Uri.build "HTTPS" "X" "/" = .ok uri ∧ uri.text = "HTTPS://X/" ∧ Uri.NamesSecure "HTTPS://X/" ∧
      ¬ (c.connect uri).ArrivesWithin (.ofMillis 9) ∧
      bounded.connect uri = c.connect uri ∧
      bounded.connect uri ≠ .after 9 (.error .handshakeTimeout) := by
  intro c uri bounded
  have hbuild : Uri.build "HTTPS" "X" "/" = .ok uri := by rfl
  have htext : uri.text = "HTTPS://X/" := by rfl
  have hsecure : Uri.NamesSecure "HTTPS://X/" := by rfl
  have hopen : bounded.connect uri = c.connect uri := connect_bounded_of_open (by decide)
  refine ⟨hbuild, htext, hsecure, ?_, hopen, ?_⟩
  · rw [Eventual.arrivesWithin_iff, Eventual.arrivesBy_after]
    decide
  · rw [hopen]
    nofun

end Connector

end SigningProxy
