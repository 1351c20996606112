import Mathlib.Data.List.DropRight
import SigningProxy.Text.Blank

/-!
# Trimming behind a front that stays

A text whose front begins and ends in no blank keeps this front when it is trimmed, and loses only the blanks at
its end.
-/

namespace SigningProxy.Text

variable {front s : List Char}

def BeginsBlank (s : List Char) : Prop := s.head?.any isBlank = true

def EndsBlank (s : List Char) : Prop := s.getLast?.any isBlank = true

instance : DecidablePred BeginsBlank := fun _ => inferInstanceAs (Decidable (_ = true))

instance : DecidablePred EndsBlank := fun _ => inferInstanceAs (Decidable (_ = true))

theorem endsBlank_iff : EndsBlank s ↔ ∃ front c, s = front ++ [c] ∧ isBlank c = true := by
  rw [EndsBlank, Option.any_eq_true]
  constructor
  · rintro ⟨c, hc, hblank⟩
    obtain ⟨front, hfront⟩ := List.getLast?_eq_some_iff.mp hc
    exact ⟨front, c, hfront, hblank⟩
  · rintro ⟨front, c, rfl, hblank⟩
    exact ⟨c, List.getLast?_concat, hblank⟩

theorem rdropWhile_eq_self_iff_not_endsBlank : s.rdropWhile isBlank = s ↔ ¬ EndsBlank s := by
  rw [List.rdropWhile_eq_self_iff, endsBlank_iff]
  constructor
  · rintro hlast ⟨front, c, rfl, hblank⟩
    apply hlast (List.concat_ne_nil c front)
    rw [List.getLast_concat]
    exact hblank
  · intro hends hne hblank
    exact hends ⟨_, _, (List.dropLast_append_getLast hne).symm, hblank⟩

theorem rdropWhile_append (hfront : ¬ EndsBlank front) (s : List Char) :
    (front ++ s).rdropWhile isBlank = front ++ s.rdropWhile isBlank := by
  induction s using List.reverseRecOn with
  | nil =>
      rw [List.append_nil, List.rdropWhile_nil, List.append_nil]
      exact rdropWhile_eq_self_iff_not_endsBlank.mpr hfront
  | append_singleton s c ih =>
      rw [← List.append_assoc, List.rdropWhile_concat, List.rdropWhile_concat, ih]
      split
      · rfl
      · rw [List.append_assoc]

theorem trim_append (hne : front ≠ []) (hbegins : ¬ BeginsBlank front) (hends : ¬ EndsBlank front)
    (s : List Char) : trim (front ++ s) = front ++ s.rdropWhile isBlank := by
  obtain ⟨c, rest, rfl⟩ := List.exists_cons_of_ne_nil hne
  have hdrop : ((c :: rest) ++ s).dropWhile isBlank = (c :: rest) ++ s :=
    List.dropWhile_cons_of_neg hbegins
  change (((c :: rest) ++ s).dropWhile isBlank).rdropWhile isBlank = _
  rw [hdrop]
  exact rdropWhile_append hends s

end SigningProxy.Text
