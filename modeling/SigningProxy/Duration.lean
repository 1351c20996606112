/-!
# Spans of time

A span is a count of nanoseconds. Its text is the largest unit that makes the whole part at least
one, with exactly as many decimals as it needs.
-/

namespace SigningProxy

/-- A span of time. -/
structure Duration where
  nanos : Nat
  deriving DecidableEq, Repr, Inhabited

namespace Duration

def ofSeconds (s : Nat) : Duration := ⟨s * 1000000000⟩

def ofMillis (ms : Nat) : Duration := ⟨ms * 1000000⟩

/-- Whole seconds. -/
def seconds (d : Duration) : Nat := d.nanos / 1000000000

/-- Whole milliseconds, and so the last moment within the span: what is left of it is too short to be seen. -/
def millis (d : Duration) : Nat := d.nanos / 1000000

def isZero (d : Duration) : Bool := d.nanos == 0

/-- Seconds are counted in 64 bits, so no span reaches `2 ^ 64` of them. -/
def Fits (d : Duration) : Prop := d.seconds < Nat.pow 2 64

instance (d : Duration) : Decidable d.Fits := inferInstanceAs (Decidable (_ < _))

/-- The sum of two spans, unless it no longer fits. -/
def add? (a b : Duration) : Option Duration :=
  let sum : Duration := ⟨a.nanos + b.nanos⟩
  if sum.Fits then some sum else none

/-- The share `part` of `10 ^ width` as decimals after the point, without the zeros that end them. -/
private def decimals (part width : Nat) : String :=
  let digits := (Nat.toDigits 10 (Nat.pow 10 width + part)).drop 1
  let kept := (digits.reverse.dropWhile (· == '0')).reverse
  if kept.isEmpty then "" else "." ++ String.ofList kept

/-- The written form: `600s`, `1.5s`, `77ms`, `0ns`. -/
def text (d : Duration) : String :=
  let n := d.nanos
  if 1000000000 ≤ n then toString (n / 1000000000) ++ decimals (n % 1000000000) 9 ++ "s"
  else if 1000000 ≤ n then toString (n / 1000000) ++ decimals (n % 1000000) 6 ++ "ms"
  else if 1000 ≤ n then toString (n / 1000) ++ decimals (n % 1000) 3 ++ "µs"
  else toString n ++ "ns"

end Duration

end SigningProxy
