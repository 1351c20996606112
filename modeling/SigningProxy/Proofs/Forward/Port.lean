import Mathlib.Data.List.Induction
import Mathlib.Data.Nat.Digits.Defs
import SigningProxy.Forward.Readdress
import SigningProxy.Proofs.Http.Authority

/-!
# Which ports are let through

A port is let through if it is left to the scheme or is read as a number of 16 bits. A connection can be made to
any such port but zero, which is let through nevertheless; and the reader takes a plus sign in front, which no
spelling of a port has. Every other port is refused by its own text.
-/

namespace SigningProxy

namespace Authority

/-- Decimal digits, and the number they spell. -/
structure Spells (digits : List Char) (n : Nat) : Prop where
  ne_nil : digits ≠ []
  isDigit : ∀ c ∈ digits, c.isDigit = true
  value : Nat.ofDigits 10 (digits.reverse.map fun c => c.toNat - 48) = n

theorem portNumber_eq (digits : List Char) :
    portNumber digits = Nat.ofDigits 10 (digits.reverse.map fun c => c.toNat - 48) := by
  induction digits using List.reverseRecOn with
  | nil => rfl
  | append_singleton front c ih =>
      rw [portNumber] at ih ⊢
      rw [List.foldl_append, ih, List.reverse_append, List.reverse_singleton, List.singleton_append,
        List.map_cons, Nat.ofDigits_cons]
      simp only [List.foldl_cons, List.foldl_nil]
      omega

theorem isPort_iff {text : String} : isPort text = true ↔
    ∃ digits n, (text.toList = digits ∨ text.toList = '+' :: digits) ∧ Spells digits n ∧ n ≤ 65535 := by
  have hread : ∀ digits : List Char,
      (!digits.isEmpty && digits.all Char.isDigit && decide (portNumber digits ≤ 65535)) = true ↔
        ∃ n, Spells digits n ∧ n ≤ 65535 := by
    intro digits
    simp only [Bool.and_eq_true, Bool.not_eq_true', List.isEmpty_eq_false_iff, List.all_eq_true,
      decide_eq_true_eq, portNumber_eq]
    constructor
    · rintro ⟨⟨hne, hdigit⟩, hmax⟩
      exact ⟨_, ⟨hne, hdigit, rfl⟩, hmax⟩
    · rintro ⟨n, ⟨hne, hdigit, rfl⟩, hmax⟩
      exact ⟨⟨hne, hdigit⟩, hmax⟩
  rw [isPort]
  split
  · next digits hplus =>
    rw [hread]
    constructor
    · rintro ⟨n, hn⟩
      exact ⟨digits, n, .inr hplus, hn⟩
    · rintro ⟨spelled, n, heq | heq, hspells, hmax⟩
      · -- A plus sign is no digit.
        have hsign := hspells.isDigit '+' (by rw [← heq, hplus]; exact List.mem_cons_self)
        exact absurd hsign (by decide)
      · rw [hplus] at heq
        cases heq
        exact ⟨n, hspells, hmax⟩
  · next hplain =>
    rw [hread]
    constructor
    · rintro ⟨n, hn⟩
      exact ⟨_, n, .inl rfl, hn⟩
    · rintro ⟨spelled, n, rfl | heq, hn⟩
      · exact ⟨n, hn⟩
      · exact absurd heq (hplain spelled)

/-- A port that a connection can be made to, or that is left to the scheme. -/
inductive Dialable : Option String → Prop
  | absent : Dialable none
  | empty : Dialable (some "")
  | number {port : String} {n : Nat} (hspells : Spells port.toList n) (hpos : 0 < n)
    (hmax : n ≤ 65535) : Dialable (some port)

/-- A port that is no such port, but is let through. -/
inductive Overlooked : Option String → Prop
  | zero {port : String} (hspells : Spells port.toList 0) : Overlooked (some port)
  | plus {port : String} {digits : List Char} {n : Nat} (hplus : port.toList = '+' :: digits)
    (hspells : Spells digits n) (hmax : n ≤ 65535) : Overlooked (some port)

theorem Overlooked.not_dialable {port : Option String} (hport : Overlooked port) : ¬ Dialable port := by
  intro hdialable
  cases hport with
  | zero hspells =>
      cases hdialable with
      | empty => exact hspells.ne_nil rfl
      | number hspells' hpos _ =>
          have hzero := hspells'.value.symm.trans hspells.value
          omega
  | plus hplus _ _ =>
      cases hdialable with
      | empty => cases hplus
      | number hspells' _ _ =>
          have hsign := hspells'.isDigit '+' (by rw [hplus]; exact List.mem_cons_self)
          exact absurd hsign (by decide)

theorem passes_iff {port : String} :
    (port.isEmpty || isPort port) = true ↔ Dialable (some port) ∨ Overlooked (some port) := by
  rw [Bool.or_eq_true, String.isEmpty_iff, isPort_iff]
  constructor
  · rintro (rfl | ⟨digits, n, rfl | hplus, hspells, hmax⟩)
    · exact .inl .empty
    · rcases Nat.eq_zero_or_pos n with rfl | hpos
      · exact .inr (.zero hspells)
      · exact .inl (.number hspells hpos hmax)
    · exact .inr (.plus hplus hspells hmax)
  · rintro (hdialable | hoverlooked)
    · cases hdialable with
      | empty => exact .inl rfl
      | number hspells _ hmax => exact .inr ⟨_, _, .inl rfl, hspells, hmax⟩
    · cases hoverlooked with
      | zero hspells => exact .inr ⟨_, _, .inl rfl, hspells, by omega⟩
      | plus hplus hspells hmax => exact .inr ⟨_, _, .inr hplus, hspells, hmax⟩

end Authority

open Authority

theorem checkPort_of_port? {authority : String} {port : Option String} (hport : port? authority = port) :
    checkPort authority = .ok () ∧ (Dialable port ∨ Overlooked port) ∨
      ∃ p, port = some p ∧ checkPort authority = .error (.invalidPort p) ∧
        ¬ (Dialable port ∨ Overlooked port) := by
  rw [checkPort, badPort?, hport]
  cases port with
  | none => exact .inl ⟨rfl, .inl .absent⟩
  | some port =>
      rw [← passes_iff, Option.filter_some, ← Bool.not_or]
      cases port.isEmpty || isPort port with
      | true => exact .inl ⟨rfl, rfl⟩
      | false => exact .inr ⟨port, rfl, rfl, Bool.false_ne_true⟩

/-- **A port is let through exactly if a connection can be made to it, or if it is overlooked.** A port that is
not let through is named by the refusal. -/
theorem checkPort_spell (user : Option String) {host : String} {port : Option String}
    (hhost : IsHost host.toList) (hport : ∀ p ∈ port, IsPortText p.toList) :
    let checked := checkPort (spell user host port)
    (checked = .ok () ↔ Dialable port ∨ Overlooked port) ∧
      (∀ cause, checked = .error cause → ∃ p, port = some p ∧ cause = .invalidPort p) ∧
      ((checked = .ok () ↔ Dialable port) ↔ ¬ Overlooked port) := by
  intro checked
  obtain ⟨hok, hpasses⟩ | ⟨p, rfl, herror, hpasses⟩ :=
    checkPort_of_port? (port?_spell user hhost hport)
  · refine ⟨iff_of_true hok hpasses, ?_, ?_⟩
    · intro cause hcause
      cases hok.symm.trans hcause
    · rw [iff_true_left hok]
      exact ⟨fun hdialable hoverlooked => hoverlooked.not_dialable hdialable, hpasses.resolve_right⟩
  · have hne : checked ≠ .ok () := by
      intro hok
      cases herror.symm.trans hok
    refine ⟨iff_of_false hne hpasses, ?_, ?_⟩
    · intro cause hcause
      cases herror.symm.trans hcause
      exact ⟨p, rfl, rfl⟩
    · exact iff_of_true (iff_of_false hne (mt .inl hpasses)) (mt .inr hpasses)

/-- Marks in the user name and in the brackets, and a port with leading zeros. -/
theorem checkPort_spell_marks :
    IsHost "[::1]".toList ∧ (∀ p ∈ some "00080", IsPortText p.toList) ∧
      checkPort "a:b@c]:1@[::1]:00080" = .ok () := by
  have hat : '@' ∉ "::1".toList := by decide
  have hhost : IsHost "[::1]".toList := .literal hat (by decide)
  have hport : ∀ p ∈ some "00080", IsPortText p.toList := by
    intro p hp
    cases hp
    exact ⟨by decide, by decide, by decide⟩
  have hdigits : "00080".toList.all Char.isDigit = true := by decide
  have hspells : Spells "00080".toList 80 := ⟨by decide, List.all_eq_true.mp hdigits, by decide⟩
  exact ⟨hhost, hport, (checkPort_spell (some "a:b@c]:1") hhost hport).1.mpr
    (.inl (.number hspells (by decide) (by decide)))⟩

/-- No connection can be made to port zero, but it is let through. -/
theorem not_dialable_zero :
    IsHost "localhost".toList ∧ IsPortText "0".toList ∧ ¬ Dialable (some "0") ∧
      checkPort "localhost:0" = .ok () := by
  have hdigits : "0".toList.all Char.isDigit = true := by decide
  have hspells : Spells "0".toList 0 := ⟨by decide, List.all_eq_true.mp hdigits, by decide⟩
  have hchecked : checkPort "localhost:0" = .ok () := by rfl
  exact ⟨.plain (by decide) (by decide) (by decide), ⟨by decide, by decide, by decide⟩,
    (Overlooked.zero hspells).not_dialable, hchecked⟩

end SigningProxy
