import Mathlib.Data.List.Forall2
import SigningProxy.Settings.Check
import SigningProxy.Proofs.Except

/-!
# What a check of settings finds

Seven conditions are checked, each by itself and by means of its own. One condition yields one problem or none,
so the problems of a list of conditions are told one for one with those of them that do not hold, by induction
on the list. Nothing that is found keeps anything else from being found.
-/

namespace SigningProxy

namespace Settings

variable {s : Settings}

theorem listenAddress_of_some {address : SocketAddress}
    (haddress : SocketAddress.ofText? s.listen = some address) : s.listenAddress = .ok address := by
  unfold listenAddress
  rw [haddress]

theorem listenAddress_of_none (haddress : SocketAddress.ofText? s.listen = none) :
    s.listenAddress = .error (.listen s.listen) := by
  unfold listenAddress
  rw [haddress]

theorem check_eq_ok_iff : s.check = .ok () ↔ s.allProblems = [] := by
  unfold check
  split
  · next hnone => simp [hnone]
  · next hnone =>
    constructor
    · intro h
      cases h
    · intro h
      exact absurd h hnone

theorem eq_invalid_of_check {e : SettingsError} (hcheck : s.check = .error e) :
    e = .invalid s.allProblems := by
  unfold check at hcheck
  split at hcheck
  · cases hcheck
  · cases hcheck
    rfl

/-- What settings have to fulfil, in the order of the settings. -/
inductive Condition where
  | listen
  | backend
  | secretPath
  | dialTimeout
  | keepAlive
  | handshakeTimeout
  | headerTimeout

namespace Condition

def all : List Condition :=
  [.listen, .backend, .secretPath, .dialTimeout, .keepAlive, .handshakeTimeout, .headerTimeout]

theorem mem_all (c : Condition) : c ∈ all := by
  cases c <;> simp [all]

/-- A header timeout may be left out, but it may not be zero. -/
def Holds (s : Settings) : Condition → Prop
  | .listen => ∃ address, SocketAddress.ofText? s.listen = some address
  | .backend => ∃ backend, Backend.parse s.backend = .ok backend
  | .secretPath => ∃ c ∈ s.secretPath.toList, Text.isBlank c = false
  | .dialTimeout => s.dialTimeout ≠ 0
  | .keepAlive => s.keepAlive ≠ 0
  | .handshakeTimeout => s.handshakeTimeout ≠ 0
  | .headerTimeout => s.headerTimeout ≠ some 0

instance (s : Settings) : DecidablePred (Holds s)
  | .listen => decidable_of_iff _ Option.isSome_iff_exists
  | .backend => decidable_of_iff _ Except.toBool_iff_exists
  | .secretPath => inferInstanceAs (Decidable (∃ _ ∈ _, _))
  | .dialTimeout => inferInstanceAs (Decidable (_ ≠ _))
  | .keepAlive => inferInstanceAs (Decidable (_ ≠ _))
  | .handshakeTimeout => inferInstanceAs (Decidable (_ ≠ _))
  | .headerTimeout => inferInstanceAs (Decidable (_ ≠ _))

/-- What is told of a condition that does not hold. The two texts that have to be read are told of with the
reader's own words. -/
inductive Tells (s : Settings) : Condition → String → Prop
  | listen {problem : Problem} (hlisten : s.listenAddress = .error problem) :
    Tells s .listen problem.message
  | backend {cause : BackendError} (hbackend : Backend.parse s.backend = .error cause) :
    Tells s .backend cause.message
  | secretPath (hblank : ∀ c ∈ s.secretPath.toList, Text.isBlank c = true) :
    Tells s .secretPath "secret_path must not be empty"
  | dialTimeout (hzero : s.dialTimeout = 0) :
    Tells s .dialTimeout "dial_timeout_secs must be greater than zero"
  | keepAlive (hzero : s.keepAlive = 0) :
    Tells s .keepAlive "keep_alive_secs must be greater than zero"
  | handshakeTimeout (hzero : s.handshakeTimeout = 0) :
    Tells s .handshakeTimeout "tls_handshake_timeout_secs must be greater than zero"
  | headerTimeout (hzero : s.headerTimeout = some 0) :
    Tells s .headerTimeout "response_header_timeout_secs must be greater than zero"

/-- What the check finds about one condition. -/
def found (s : Settings) : Condition → List Problem
  | .listen => problems s.listenAddress
  | .backend => problems s.servedBackend
  | .secretPath => problems s.checkSecretPath
  | .dialTimeout => problems (checkTimeout "dial_timeout_secs" s.timeouts.dial)
  | .keepAlive => problems (checkTimeout "keep_alive_secs" s.timeouts.keepAlive)
  | .handshakeTimeout => problems (checkTimeout "tls_handshake_timeout_secs" s.timeouts.handshake)
  | .headerTimeout =>
    s.timeouts.header.toList.flatMap fun limit =>
      problems (checkTimeout "response_header_timeout_secs" limit)

theorem allProblems_eq (s : Settings) : s.allProblems = all.flatMap (found s) := by
  cases hheader : s.timeouts.header <;> simp [allProblems, limits, all, found, hheader]

/-- A limit is a problem exactly if it is zero. -/
theorem found_limit {c : Condition} {name : String} {limit : UInt64} (hholds : c.Holds s ↔ limit ≠ 0)
    (hfound : found s c = problems (checkTimeout name (.ofSeconds limit.toNat)))
    (htells : limit = 0 → Tells s c (Problem.zeroTimeout name).message) :
    (c.Holds s ∧ found s c = []) ∨
      (¬ c.Holds s ∧ ∃ problem, found s c = [problem] ∧ Tells s c problem.message) := by
  have hzero : (Duration.ofSeconds limit.toNat).isZero = true ↔ limit = 0 := by
    rw [Duration.isZero, beq_iff_eq, ← UInt64.toNat_inj, UInt64.toNat_zero]
    show limit.toNat * 1000000000 = 0 ↔ limit.toNat = 0
    omega
  rw [hfound, checkTimeout]
  split
  · next hlimit =>
    exact .inr ⟨fun hok => hholds.mp hok (hzero.mp hlimit), _, rfl, htells (hzero.mp hlimit)⟩
  · next hlimit => exact .inl ⟨hholds.mpr (mt hzero.mpr hlimit), rfl⟩

/-- One condition yields a problem or none. -/
theorem found_cases (s : Settings) (c : Condition) :
    (c.Holds s ∧ found s c = []) ∨
      (¬ c.Holds s ∧ ∃ problem, found s c = [problem] ∧ Tells s c problem.message) := by
  cases c with
  | listen =>
      simp only [Holds, found]
      cases haddress : SocketAddress.ofText? s.listen with
      | some address =>
          have hlisten := listenAddress_of_some haddress
          exact .inl ⟨⟨address, rfl⟩, congrArg problems hlisten⟩
      | none =>
          have hlisten := listenAddress_of_none haddress
          exact .inr ⟨by simp, _, congrArg problems hlisten, .listen hlisten⟩
  | backend =>
      simp only [Holds, found, servedBackend]
      cases hbackend : Backend.parse s.backend with
      | ok backend => exact .inl ⟨⟨backend, rfl⟩, rfl⟩
      | error cause => exact .inr ⟨by simp, _, rfl, .backend hbackend⟩
  | secretPath =>
      have hall : Text.blank s.secretPath = true ↔ ∀ c ∈ s.secretPath.toList, Text.isBlank c = true :=
        List.all_eq_true
      simp only [Holds, found, checkSecretPath]
      split
      · next hblank =>
        rw [hall] at hblank
        exact .inr ⟨by simpa using hblank, _, rfl, .secretPath hblank⟩
      · next hblank =>
        rw [hall] at hblank
        exact .inl ⟨by simpa using hblank, rfl⟩
  | dialTimeout => exact found_limit Iff.rfl rfl .dialTimeout
  | keepAlive => exact found_limit Iff.rfl rfl .keepAlive
  | handshakeTimeout => exact found_limit Iff.rfl rfl .handshakeTimeout
  | headerTimeout =>
      cases hheader : s.headerTimeout with
      | none =>
          refine .inl ⟨by simp [Holds, hheader], ?_⟩
          simp [found, timeouts, hheader]
      | some limit =>
          have hholds : Holds s .headerTimeout ↔ limit ≠ 0 := by simp [Holds, hheader]
          have hfound : found s .headerTimeout =
              problems (checkTimeout "response_header_timeout_secs" (.ofSeconds limit.toNat)) := by
            simp [found, timeouts, hheader]
          refine found_limit hholds hfound fun hzero => .headerTimeout ?_
          rw [hheader, hzero]

/-- The problems are told one for one with the conditions that do not hold. -/
theorem forall₂_tells (s : Settings) (conditions : List Condition) :
    List.Forall₂ (Tells s) (conditions.filter fun c => ¬ c.Holds s)
      ((conditions.flatMap (found s)).map Problem.message) := by
  induction conditions with
  | nil => exact .nil
  | cons c conditions ih =>
      rw [List.flatMap_cons, List.map_append]
      obtain ⟨hholds, hnone⟩ | ⟨hholds, problem, hone, htells⟩ := found_cases s c
      · rw [List.filter_cons_of_neg (by simpa using hholds), hnone]
        exact ih
      · rw [List.filter_cons_of_pos (by simpa using hholds), hone]
        exact .cons htells ih

theorem allProblems_eq_nil_iff : s.allProblems = [] ↔ ∀ c : Condition, c.Holds s := by
  have hone : ∀ c : Condition, found s c = [] ↔ c.Holds s := by
    intro c
    obtain ⟨hholds, hnone⟩ | ⟨hholds, problem, hone, -⟩ := found_cases s c
    · exact iff_of_true hnone hholds
    · exact iff_of_false (by simp [hone]) hholds
  simp [allProblems_eq, List.flatMap_eq_nil_iff, hone, mem_all]

end Condition

/-- **A check finds exactly what is wrong.** Settings pass if every condition holds. If not, they are refused
with one message for each condition that does not hold, in the order of the settings. -/
theorem check_tells_violated (s : Settings) :
    (s.check = .ok () ↔ ∀ c : Condition, c.Holds s) ∧
      ∀ e, s.check = .error e → ∃ messages,
        List.Forall₂ (Condition.Tells s) (Condition.all.filter fun c => ¬ c.Holds s) messages ∧
          e.chain = ["Invalid configuration: " ++ "; ".intercalate messages] := by
  refine ⟨check_eq_ok_iff.trans Condition.allProblems_eq_nil_iff, ?_⟩
  intro e hcheck
  refine ⟨s.allProblems.map Problem.message, ?_, ?_⟩
  · rw [Condition.allProblems_eq]
    exact Condition.forall₂_tells s Condition.all
  · rw [eq_invalid_of_check hcheck, SettingsError.chain]

end Settings

end SigningProxy
