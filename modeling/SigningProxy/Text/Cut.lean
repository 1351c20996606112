/-!
# Cutting a text at its separators

Addresses, field values and tokens are taken apart at separators: at the first one, at the last one,
at every one, or at the first place where a whole word stands. None of these loses anything: the
pieces and the separators between them are the text again.
-/

namespace SigningProxy.Text

variable {α : Type} [DecidableEq α]

/-- What stands before and after the first `sep`. -/
def cut? (sep : α) (s : List α) : Option (List α × List α) :=
  match s.dropWhile (· ≠ sep) with
  | [] => none
  | _ :: rest => some (s.takeWhile (· ≠ sep), rest)

/-- What stands before and after the last `sep`. -/
def cutLast? (sep : α) (s : List α) : Option (List α × List α) :=
  (cut? sep s.reverse).map fun (after, before) => (before.reverse, after.reverse)

/-- What stands after the last `sep`, or everything where there is none. -/
def afterLast (sep : α) (s : List α) : List α :=
  (s.reverse.takeWhile (· ≠ sep)).reverse

/-- What stands before and after the first occurrence of the whole of `word`. -/
def cutWord? (word : List α) (s : List α) : Option (List α × List α) :=
  go [] s
where
  go (seen : List α) : List α → Option (List α × List α)
    | [] => if word.isEmpty then some (seen.reverse, []) else none
    | c :: rest =>
      if word.isPrefixOf (c :: rest) then some (seen.reverse, (c :: rest).drop word.length)
      else go (c :: seen) rest

/-- The stretches between the separators, empty ones included: one more than there are separators.
-/
def pieces (sep : α) : List α → List (List α)
  | [] => [[]]
  | c :: rest =>
    if c = sep then [] :: pieces sep rest
    else
      match pieces sep rest with
      | [] => [[c]]
      | first :: others => (c :: first) :: others

/-- The list without the elements satisfying `p` at its two ends. -/
def strip {β : Type} (p : β → Bool) (s : List β) : List β :=
  ((s.dropWhile p).reverse.dropWhile p).reverse

/-- Cutting loses nothing. -/
theorem eq_of_cut? {sep : α} {s before after : List α} (h : cut? sep s = some (before, after)) :
    s = before ++ sep :: after := by
  unfold cut? at h
  split at h
  · cases h
  · next c rest hdrop =>
    cases h
    have hhead := List.head?_dropWhile_not (fun x => decide (x ≠ sep)) s
    have hc : c = sep := by rw [hdrop] at hhead; simpa using hhead
    have happ := List.takeWhile_append_dropWhile (p := fun x => decide (x ≠ sep)) (l := s)
    rw [hdrop, hc] at happ
    exact happ.symm

end SigningProxy.Text
