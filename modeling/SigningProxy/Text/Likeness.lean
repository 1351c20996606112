/-!
# How much two texts are alike

The likeness of two texts is the mean of three shares: of the characters of the one that have a
partner in the other, of those of the other that have one in the first, and of the partners that
stand in the same order in both. It is zero for texts without partners and one for equal texts.
-/

namespace SigningProxy.Text

variable {α : Type} [DecidableEq α]

/-- The places in `b` where the characters of `a` have their partners, in the order of `a`. A
partner is the first equal character at most `reach` places away that is not taken yet. -/
def partners (reach : Nat) (a b : List α) : List Nat :=
  a.zipIdx.foldl (fun taken (c, place) => taken ++ (partner? taken c place).toList) []
where
  partner? (taken : List Nat) (c : α) (place : Nat) : Option Nat :=
    (b.zipIdx.find? fun (d, other) =>
      d = c && place ≤ other + reach && other ≤ place + reach && !taken.contains other).map (·.2)

/-- How many of the partners change places with each other: half of those that are in another order
there than here. -/
def swaps (places : List Nat) (b : List α) : Nat :=
  let here := places.map (b[·]?)
  let there := (places.mergeSort (· ≤ ·)).map (b[·]?)
  ((here.zip there).filter fun (c, d) => c ≠ d).length / 2

/-- How much two texts are alike, between zero and one. Partners stand less than half the longer
text apart. -/
def likeness (a b : List α) : Float :=
  let reach := max a.length b.length / 2 - 1
  let places := partners reach a b
  let share (n : Nat) (whole : Nat) : Float := Float.ofNat n / Float.ofNat whole
  if places.isEmpty then 0.0
  else
    let count := places.length
    (share count a.length + share count b.length + share (count - swaps places b) count) / 3.0

end SigningProxy.Text
