import SigningProxy.Program.Startup
import SigningProxy.Proofs.Network.Transport
import SigningProxy.Proofs.Settings.Check

/-!
# What checked settings are good for

Settings that have been checked name an address to listen on and a backend, so a start with them gets as far
as the network allows. One thing is not checked: the limits on dialling and on the handshake are added when
the proxy is bound, and their sum may be no span of time, although each of them is one. Then the start breaks
off between the check and the server.
-/

namespace SigningProxy

theorem Duration.add?_ofSeconds (a b : Nat) :
    (Duration.ofSeconds a).add? (.ofSeconds b) =
      if a + b < Nat.pow 2 64 then some (.ofSeconds (a + b)) else none := by
  have hsum : (⟨(Duration.ofSeconds a).nanos + (Duration.ofSeconds b).nanos⟩ : Duration)
      = .ofSeconds (a + b) := by
    simp only [ofSeconds, Nat.add_mul]
  have hseconds : (Duration.ofSeconds (a + b)).seconds = a + b :=
    Nat.mul_div_cancel _ (by decide)
  simp only [add?, hsum, Fits, hseconds]

namespace Settings

variable {s : Settings}

theorem usable_of_check (hcheck : s.check = .ok ()) :
    (∃ address, s.listenAddress = .ok address) ∧ ∃ backend, Backend.parse s.backend = .ok backend := by
  have hall := Condition.allProblems_eq_nil_iff.mp (check_eq_ok_iff.mp hcheck)
  obtain ⟨address, haddress⟩ := hall .listen
  exact ⟨⟨address, listenAddress_of_some haddress⟩, hall .backend⟩

/-- The limits on dialling and on the handshake are a span of time together. -/
def LimitsFit (s : Settings) : Prop := s.dialTimeout.toNat + s.handshakeTimeout.toNat < Nat.pow 2 64

instance (s : Settings) : Decidable s.LimitsFit := inferInstanceAs (Decidable (_ < _))

theorem connectBudget?_of_fit (hfit : s.LimitsFit) :
    s.timeouts.connectBudget? =
      some (.ofSeconds (s.dialTimeout.toNat + s.handshakeTimeout.toNat)) :=
  (Duration.add?_ofSeconds _ _).trans (if_pos hfit)

theorem connectBudget?_of_overflow (hfit : ¬ s.LimitsFit) : s.timeouts.connectBudget? = none :=
  (Duration.add?_ofSeconds _ _).trans (if_neg hfit)

end Settings

/-! ### Binding -/

namespace Binding

variable {address secretPath version : String} {timeouts : Timeouts} {backend : Backend}

theorem new_of_budget {budget : Duration} (hbackend : Backend.parse address = .ok backend)
    (hbudget : timeouts.connectBudget? = some budget) :
    ∃ log, new address secretPath version timeouts =
      (log, .ok ⟨(Gateway.new backend version).1, ⟨timeouts, budget, hbudget⟩, .new secretPath⟩) := by
  rw [new, hbackend]
  dsimp only
  rw [Network.ofTimeouts?_eq_some hbudget]
  exact ⟨_, rfl⟩

theorem new_of_no_budget (hbackend : Backend.parse address = .ok backend)
    (hbudget : timeouts.connectBudget? = none) :
    (new address secretPath version timeouts).2 = .error .budgetOverflow := by
  rw [new, hbackend]
  dsimp only
  rw [Network.ofTimeouts?_eq_none hbudget]

/-- Binding with some settings. -/
def ofSettings (s : Settings) : List Record × Except BindError Binding :=
  new s.backend s.secretPath s.version s.timeouts

variable {s : Settings}

theorem ofSettings_of_fit (hbackend : Backend.parse s.backend = .ok backend) (hfit : s.LimitsFit) :
    ∃ bound, (ofSettings s).2 = .ok bound ∧
      bound.network.budget = .ofSeconds (s.dialTimeout.toNat + s.handshakeTimeout.toNat) := by
  obtain ⟨log, hnew⟩ := new_of_budget hbackend (Settings.connectBudget?_of_fit hfit)
  exact ⟨_, congrArg Prod.snd hnew, rfl⟩

theorem ofSettings_of_overflow (hbackend : Backend.parse s.backend = .ok backend)
    (hfit : ¬ s.LimitsFit) : (ofSettings s).2 = .error .budgetOverflow :=
  new_of_no_budget hbackend (Settings.connectBudget?_of_overflow hfit)

end Binding

/-! ### Starting -/

namespace Startup

variable {s : Settings} {address : SocketAddress} {bound : Binding}

/-- After the check and with a bound proxy, the network decides. -/
theorem serve_of_bound (host : Host) (hcheck : s.check = .ok ())
    (haddress : s.listenAddress = .ok address) (hbound : (Binding.ofSettings s).2 = .ok bound) :
    (serve host s).2 = match host.listen address with
      | .ok () => .ok bound
      | .error code => .error (.ofListen ⟨code⟩) := by
  rcases hsettings : Binding.ofSettings s with ⟨log, result⟩
  rw [hsettings] at hbound
  rw [Binding.ofSettings] at hsettings
  change result = .ok bound at hbound
  subst hbound
  unfold serve
  rw [hcheck]
  dsimp only
  rw [hsettings]
  dsimp only
  rw [haddress]
  dsimp only
  rw [Server.listen]
  cases host.listen address <;> rfl

theorem serve_of_unbound (host : Host) {e : BindError} (hcheck : s.check = .ok ())
    (hbound : (Binding.ofSettings s).2 = .error e) : (serve host s).2 = .error (.ofBind e) := by
  rcases hsettings : Binding.ofSettings s with ⟨log, result⟩
  rw [hsettings] at hbound
  rw [Binding.ofSettings] at hsettings
  change result = .error e at hbound
  subst hbound
  unfold serve
  rw [hcheck]
  dsimp only
  rw [hsettings]

/-- **Checked settings start exactly when their limits fit together.** They always name an address to
listen on. If the limits on dialling and on the handshake fit, the proxy is bound with their sum as its
budget, and then nothing but the network can keep it from listening; if they do not, the start breaks off
while the proxy is bound. -/
theorem serve_of_check (hcheck : s.check = .ok ()) :
    ∃ address, s.listenAddress = .ok address ∧
      ((∃ bound, (Binding.ofSettings s).2 = .ok bound) ↔ s.LimitsFit) ∧
      (s.LimitsFit → ∃ bound, (Binding.ofSettings s).2 = .ok bound ∧
        bound.network.budget = .ofSeconds (s.dialTimeout.toNat + s.handshakeTimeout.toNat) ∧
        ∀ host, (serve host s).2 = match host.listen address with
          | .ok () => .ok bound
          | .error code => .error (.ofListen ⟨code⟩)) ∧
      (¬ s.LimitsFit → (Binding.ofSettings s).2 = .error .budgetOverflow ∧
        ∀ host, (serve host s).2 = .error ⟨101, [BindError.budgetOverflow.message]⟩) := by
  obtain ⟨⟨address, haddress⟩, backend, hbackend⟩ := Settings.usable_of_check hcheck
  refine ⟨address, haddress, ?_, ?_, ?_⟩
  · constructor
    · rintro ⟨bound, hbound⟩
      apply Decidable.byContradiction
      intro hfit
      rw [Binding.ofSettings_of_overflow hbackend hfit] at hbound
      cases hbound
    · intro hfit
      obtain ⟨bound, hbound, -⟩ := Binding.ofSettings_of_fit hbackend hfit
      exact ⟨bound, hbound⟩
  · intro hfit
    obtain ⟨bound, hbound, hbudget⟩ := Binding.ofSettings_of_fit hbackend hfit
    exact ⟨bound, hbound, hbudget, fun host => serve_of_bound host hcheck haddress hbound⟩
  · intro hfit
    have hbound := Binding.ofSettings_of_overflow hbackend hfit
    exact ⟨hbound, fun host => serve_of_unbound host hcheck hbound⟩

/-- The standard settings are checked, and start. -/
theorem serve_of_check_standard :
    let s := Settings.new "authpx.json"
    s.check = .ok () ∧ s.LimitsFit ∧ ∃ bound, (Binding.ofSettings s).2 = .ok bound ∧
      bound.network.budget = .ofSeconds 40 := by
  intro s
  have hcheck : s.check = .ok () := Settings.check_eq_ok_iff.mpr (by decide +kernel)
  have hfit : s.LimitsFit := by decide
  obtain ⟨address, haddress, hiff, hbound, -⟩ := serve_of_check hcheck
  obtain ⟨bound, hbound, hbudget, -⟩ := hbound hfit
  exact ⟨hcheck, hfit, bound, hbound, hbudget⟩

/-- A dial limit as long as can be and a handshake limit of one second are checked, but cannot be kept. -/
theorem serve_overflow :
    let s :=
      { Settings.new "authpx.json" with dialTimeout := 18446744073709551615, handshakeTimeout := 1 }
    s.check = .ok () ∧ (Binding.ofSettings s).2 = .error .budgetOverflow ∧
      (serve .isolated s).2 = .error ⟨101, ["overflow when adding durations"]⟩ := by
  intro s
  have hcheck : s.check = .ok () := Settings.check_eq_ok_iff.mpr (by decide +kernel)
  obtain ⟨-, backend, hbackend⟩ := Settings.usable_of_check hcheck
  have hbound := Binding.ofSettings_of_overflow hbackend (show ¬ s.LimitsFit by decide)
  exact ⟨hcheck, hbound, serve_of_unbound .isolated hcheck hbound⟩

end Startup

end SigningProxy
