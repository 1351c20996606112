import SigningProxy.Forward.Hops
import SigningProxy.Proofs.Address

/-!
# What is left of a header map behind a hop

Removing names one after the other leaves, under every other name, the values that were there, in
their order. The chain of addresses is the only thing that a hop adds to, and it is always a text that
a field value can hold, because what is no text has been left out of it.
-/

namespace SigningProxy.Headers

@[simp] theorem values_eraseAll (h : Headers) (names : List FieldName) (name : FieldName) :
    (h.eraseAll names).values name = if name ∈ names then [] else h.values name := by
  induction names generalizing h with
  | nil => simp [eraseAll]
  | cons first names ih =>
      change ((h.erase first).eraseAll names).values name = _
      rw [ih, values_erase]
      by_cases hname : name ∈ names
      · simp [hname]
      · simp [hname]

/-- The names that do not pass a hop together with this header map. -/
def hopNames (h : Headers) : List FieldName := h.nominated ++ FieldName.ofHop

@[simp] theorem values_stripHops (h : Headers) (name : FieldName) :
    h.stripHops.values name = if name ∈ h.hopNames then [] else h.values name :=
  values_eraseAll h h.hopNames name

/-! ### The chain of addresses -/

theorem isFieldText_forwardedChain (h : Headers) (client : IpAddress) :
    IsFieldText (h.forwardedChain client) := by
  apply IsFieldText.intercalate (show IsFieldText ", " by decide)
  intro s hs
  rw [List.mem_append, List.mem_singleton] at hs
  rcases hs with hs | rfl
  · obtain ⟨v, -, hv⟩ := List.mem_filterMap.mp hs
    exact (FieldValue.encode_of_text? hv).1
  · exact client.isFieldText_text

/-- The chain of addresses as the value of its field. -/
def chainValue (h : Headers) (client : IpAddress) : FieldValue :=
  .ofText (Utf8.encode (h.forwardedChain client)) (h.isFieldText_forwardedChain client).isTextByte

/-- The client is never left out. -/
theorem appendForwarded_eq (h : Headers) (client : IpAddress) :
    h.appendForwarded client = h.insert .forwardedFor (h.chainValue client) := by
  rw [appendForwarded, FieldValue.ofString?_of_isFieldText (h.isFieldText_forwardedChain client)]
  rfl

end SigningProxy.Headers
