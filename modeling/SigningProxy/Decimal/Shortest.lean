/-!
# The shortest decimal of a binary fraction

A double stands for every real number that rounds to it. Its text has the fewest digits that lie in
that interval, and among those the nearest to it; of two that are equally near, the one whose last
digit is even. The interval's ends are midpoints between neighbours; they belong to it when the
double's significand is even.

Everything is exact: numbers are quotients of natural numbers, and a candidate is compared with the
interval's ends by cross multiplication.
-/

namespace SigningProxy.Decimal

/-- A positive double with the two midpoints next to it, as numerators over one denominator. -/
structure Interval where
  low : Nat
  value : Nat
  high : Nat
  den : Nat
  closed : Bool
  deriving DecidableEq, Repr

namespace Interval

/-- The interval of `significand * 2 ^ exponent`; `irregular` when the neighbour below is only half
as far away as the one above. -/
def of (significand : Nat) (exponent : Int) (irregular : Bool) : Interval :=
  let scale := Nat.pow 2 (exponent - 2).toNat
  let below := if irregular then 1 else 2
  { low := (4 * significand - below) * scale
    value := 4 * significand * scale
    high := (4 * significand + 2) * scale
    den := Nat.pow 2 (2 - exponent).toNat
    closed := significand % 2 == 0 }

/-- Whether `digits * 10 ^ power` rounds to the value. -/
def holds (i : Interval) (digits : Nat) (power : Int) : Bool :=
  let candidate := digits * Nat.pow 10 power.toNat * i.den
  let unit := Nat.pow 10 (-power).toNat
  if i.closed then i.low * unit ≤ candidate && candidate ≤ i.high * unit
  else i.low * unit < candidate && candidate < i.high * unit

/-- How far `digits * 10 ^ power` is from the value, in a unit that depends on `power` alone. -/
def distance (i : Interval) (digits : Nat) (power : Int) : Nat :=
  let candidate := digits * Nat.pow 10 power.toNat * i.den
  let exact := i.value * Nat.pow 10 (-power).toNat
  (candidate - exact) + (exact - candidate)

/-- The power of ten at or below the value: `10 ^ k ≤ value < 10 ^ (k + 1)`. -/
def magnitude (i : Interval) : Int :=
  let whole := i.value / i.den
  if 0 < whole then (Nat.toDigits 10 whole).length - 1
  else
    match (List.range 400).find? fun k => i.den ≤ i.value * Nat.pow 10 k with
    | some k => -k
    | none => 0

/-- Whether to take `floor` rather than `floor + 1` when both round to the value. -/
def prefersFloor (i : Interval) (floor : Nat) (power : Int) : Bool :=
  let below := i.distance floor power
  let above := i.distance (floor + 1) power
  below < above || (below == above && floor % 2 == 0)

/-- The best candidate of `count` digits, if one of the two next to the value rounds to it. -/
def candidate? (i : Interval) (count : Nat) : Option (Nat × Int) :=
  let power := i.magnitude + 1 - count
  let floor := i.value * Nat.pow 10 (-power).toNat / (i.den * Nat.pow 10 power.toNat)
  match i.holds floor power && 0 < floor, i.holds (floor + 1) power with
  | true, true => some (if i.prefersFloor floor power then floor else floor + 1, power)
  | true, false => some (floor, power)
  | false, true => some (floor + 1, power)
  | false, false => none

/-- The fewest digits that round to the value, and the power of ten they are multiplied by. -/
def shortest (i : Interval) : Nat × Int :=
  ((List.range 17).findSome? fun n => i.candidate? (n + 1)).getD (0, 0)

end Interval

/-- Digits without the zeros that end them, with the power of ten adjusted. -/
def trimZeros : (digits : List Char) → Int → List Char × Int
  | digits, power =>
    let kept := (digits.reverse.dropWhile (· == '0')).reverse
    (kept, power + (digits.length - kept.length : Nat))

/-- Positional from `10 ^ -5` up to `10 ^ 16`, with a fraction always; beyond, a mantissa and a
signed exponent. -/
def layout (digits : List Char) (power : Int) : String :=
  let point := digits.length + power
  let zeros := fun (n : Int) => List.replicate n.toNat '0'
  if -5 < point ∧ point ≤ 16 then
    if 0 ≤ power then String.ofList (digits ++ zeros power ++ ['.', '0'])
    else if 0 < point then
      String.ofList (digits.take point.toNat ++ '.' :: digits.drop point.toNat)
    else String.ofList ('0' :: '.' :: zeros (-point) ++ digits)
  else
    let exponent := point - 1
    let magnitude := Nat.toDigits 10 exponent.natAbs
    let mark := if exponent < 0 then '-' else '+'
    let fraction := if digits.length ≤ 1 then [] else '.' :: digits.drop 1
    String.ofList (digits.take 1 ++ fraction ++ 'e' :: mark :: magnitude)

/-- The text of a finite double. -/
def text (f : Float) : String :=
  let bits := f.toBits.toNat
  let sign := if bits / Nat.pow 2 63 = 1 then "-" else ""
  let biased : Nat := bits / Nat.pow 2 52 % 2048
  let fraction := bits % Nat.pow 2 52
  if biased = 0 ∧ fraction = 0 then sign ++ "0.0"
  else
    let interval :=
      if biased = 0 then Interval.of fraction (-1074) false
      else Interval.of (Nat.pow 2 52 + fraction) ((biased : Int) - 1075) (fraction == 0 && 1 < biased)
    let (digits, power) := interval.shortest
    let (digits, power) := trimZeros (Nat.toDigits 10 digits) power
    sign ++ layout digits power

end SigningProxy.Decimal
