import SigningProxy.Proofs.Backend.Spelling
import SigningProxy.Proofs.Http.Authority

/-!
# Addresses without a host

An address is refused for want of a host only if nothing at all stands where its authority should be. A user
name or a port alone is an authority too, so with either of them an address is read as a backend that has no
host.
-/

namespace SigningProxy.Backend

variable {address : String} {scheme : Scheme} {rest : List Char}

/-- **When a host is missed:** exactly if there is none and neither a user name nor a port stands in its place.
Any other address of the web is read as a backend with this authority. -/
theorem parse_eq_missingHost_iff (hnames : Names address scheme rest) :
    let authority := String.ofList (Uri.authorityText rest)
    (parse address = .error (.missingHost address) ↔ Authority.host authority = [] ∧
      '@' ∉ authority.toList ∧ Authority.port? authority = none) ∧
    (parse address ≠ .error (.missingHost address) →
      ∃ b, parse address = .ok b ∧ b.scheme = scheme ∧ b.authority = authority) := by
  intro authority
  have hempty : authority = "" ↔ Uri.authorityText rest = [] := by
    rw [← String.toList_eq_nil_iff, String.toList_ofList]
  rw [← Authority.eq_empty_iff, hempty, parse_of_names hnames]
  split
  · next hnone =>
    exact ⟨iff_of_true rfl hnone, fun hsome => absurd rfl hsome⟩
  · next hsome =>
    refine ⟨iff_of_false (by simp) hsome, fun _ => ⟨_, rfl, rfl, ?_⟩⟩
    rw [ofBody, authorityOf_takeWhile]

/-- A user name before no host is enough. -/
theorem parse_eq_missingHost_iff_user :
    ∃ b, parse " HTTPS://user@/x#y" = .ok b ∧ b.scheme = .https ∧ b.authority = "user@" ∧
      Authority.host b.authority = [] := by
  have hcut : Text.cutWord? "://".toList (Text.trim " HTTPS://user@/x#y".toList) =
      some ("HTTPS".toList, "user@/x#y".toList) := by rfl
  have hnames : Names " HTTPS://user@/x#y" .https "user@/x#y".toList :=
    names_iff_cutWord?.mpr ⟨_, hcut, by rfl⟩
  obtain ⟨hmissing, hread⟩ := parse_eq_missingHost_iff hnames
  obtain ⟨b, hparse, hscheme, hauthority⟩ := hread fun hrefused =>
    (hmissing.mp hrefused).2.1 (by decide)
  have huser : b.authority = "user@" := hauthority.trans (by decide)
  exact ⟨b, hparse, hscheme, huser, huser ▸ by decide⟩

/-- A port alone is read as a backend, although there is no host before it. -/
theorem hostless_with_port :
    Names "http://:80" .http ":80".toList ∧
      Authority.host (String.ofList (Uri.authorityText ":80".toList)) = [] ∧
      parse "http://:80" = .ok ⟨.http, ":80", "", none⟩ ∧
      ¬ (parse "http://:80" = .error (.missingHost "http://:80") ↔
        Authority.host (String.ofList (Uri.authorityText ":80".toList)) = []) := by
  have hcut : Text.cutWord? "://".toList (Text.trim "http://:80".toList) =
      some ("http".toList, ":80".toList) := by rfl
  have hparse : parse "http://:80" = .ok ⟨.http, ":80", "", none⟩ := by rfl
  have hhost : Authority.host (String.ofList (Uri.authorityText ":80".toList)) = [] := by decide
  refine ⟨names_iff_cutWord?.mpr ⟨_, hcut, by rfl⟩, hhost, hparse, ?_⟩
  intro hclaim
  have hrefused := hclaim.mpr hhost
  rw [hparse] at hrefused
  cases hrefused

end SigningProxy.Backend
