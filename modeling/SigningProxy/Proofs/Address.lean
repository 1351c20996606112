import SigningProxy.Address
import SigningProxy.Proofs.Http.Fields

/-!
# Addresses as field values

The written form of an address consists of digits, letters, dots and colons, so it can stand in the
value of a field.
-/

namespace SigningProxy.IpAddress

theorem isTextChar_digitChar : ∀ d < 16, isTextChar (Nat.digitChar d) = true := by
  decide

theorem isTextChar_of_mem_toDigits {base : Nat} (hone : 1 < base) (hbase : base ≤ 16) (n : Nat) :
    ∀ c ∈ Nat.toDigits base n, isTextChar c = true := by
  induction n using Nat.strongRecOn with
  | ind n ih =>
      intro c hc
      rw [Nat.toDigits_eq_if hone] at hc
      split at hc
      · rw [List.mem_singleton] at hc
        rw [hc]
        exact isTextChar_digitChar n (by omega)
      · rw [List.mem_append, List.mem_singleton] at hc
        rcases hc with hc | hc
        · exact ih (n / base) (Nat.div_lt_self (by omega) hone) c hc
        · have hlt := Nat.mod_lt n (show 0 < base by omega)
          rw [hc]
          exact isTextChar_digitChar (n % base) (by omega)

theorem isFieldText_dotted (a b c d : UInt8) : IsFieldText (dotted a b c d) := by
  apply IsFieldText.intercalate (show IsFieldText "." by decide)
  intro s hs
  obtain ⟨n, -, rfl⟩ := List.mem_map.mp hs
  rw [IsFieldText, Nat.toString_eq_repr, Nat.toList_repr]
  exact isTextChar_of_mem_toDigits (by decide) (by decide) n.toNat

theorem isFieldText_hexGroups (groups : List UInt16) : IsFieldText (hexGroups groups) := by
  apply IsFieldText.intercalate (show IsFieldText ":" by decide)
  intro s hs
  obtain ⟨g, -, rfl⟩ := List.mem_map.mp hs
  rw [IsFieldText, String.toList_ofList]
  exact isTextChar_of_mem_toDigits (by decide) (by decide) g.toNat

theorem isFieldText_colons (groups : List UInt16) : IsFieldText (colons groups) := by
  have hmapped : IsFieldText "::ffff:" := by decide
  have hrun : IsFieldText "::" := by decide
  unfold colons
  split
  · exact hmapped.append (isFieldText_dotted _ _ _ _)
  · dsimp only
    split
    · exact ((isFieldText_hexGroups _).append hrun).append (isFieldText_hexGroups _)
    · exact isFieldText_hexGroups _

theorem isFieldText_text (ip : IpAddress) : IsFieldText ip.text := by
  cases ip with
  | v4 a b c d => exact isFieldText_dotted a b c d
  | v6 groups eight => exact isFieldText_colons groups

end SigningProxy.IpAddress
