import SigningProxy.Decimal.Shortest
import SigningProxy.Json.Fault
import SigningProxy.Text.Utf8

/-!
# Words, strings and numbers of a document

Every reader here starts at a given byte and leaves what it did not use. Strings are read as bytes
and must be a text in the end; numbers without a fraction that fit into 64 bits are integers and all
others are doubles. A value that nobody asked for is skipped: it must be well formed, but a number
of any size and an unpaired surrogate are let through.
-/

namespace SigningProxy.Json

def isSpace (b : UInt8) : Bool := b == 32 || b == 10 || b == 9 || b == 13

def skipSpace (s : List UInt8) : List UInt8 := s.dropWhile isSpace

def isDigit (b : UInt8) : Bool := 48 ≤ b && b ≤ 57

def startsWithDigit (s : List UInt8) : Bool := s.head?.any isDigit

/-- The rest of a word whose first letter has been read. -/
def readWord : (word : List UInt8) → List UInt8 → Except Stop (List UInt8)
  | [], s => .ok s
  | _ :: _, [] => stopAt .endInValue []
  | expected :: word, b :: rest =>
    if b = expected then readWord word rest else stopAt .expectedWord rest

/-- What `null` is without its first letter. -/
def nullRest : List UInt8 := [117, 108, 108]

/-- What `true` is without its first letter. -/
def trueRest : List UInt8 := [114, 117, 101]

/-- What `false` is without its first letter. -/
def falseRest : List UInt8 := [97, 108, 115, 101]

/-! ### Strings -/

def hexValue? (b : UInt8) : Option Nat :=
  if 48 ≤ b ∧ b ≤ 57 then some (b.toNat - 48)
  else if 97 ≤ b ∧ b ≤ 102 then some (b.toNat - 87)
  else if 65 ≤ b ∧ b ≤ 70 then some (b.toNat - 55)
  else none

/-- Four hexadecimal digits. -/
def readHex : Reader Nat
  | a :: b :: c :: d :: rest =>
    match hexValue? a, hexValue? b, hexValue? c, hexValue? d with
    | some a, some b, some c, some d => .ok (((a * 16 + b) * 16 + c) * 16 + d, rest)
    | _, _, _, _ => stopAt .invalidEscape rest
  | _ => stopAt .endInString []

/-- The second half of a surrogate pair, after the first half `high`. -/
def readLowSurrogate (high : Nat) : Reader (List UInt8)
  | [] => stopAt .endInString []
  | [b] => if b = 92 then stopAt .endInString [] else stopAt .cutSurrogate []
  | b :: c :: rest =>
    if b ≠ 92 then stopAt .cutSurrogate (c :: rest)
    else if c ≠ 117 then stopAt .cutSurrogate rest
    else do
      let (low, rest) ← readHex rest
      if low < 0xDC00 || 0xDFFF < low then stopAt .loneSurrogate rest
      else
        let code := (high - 0xD800) * 1024 + (low - 0xDC00) + 0x10000
        return (String.utf8EncodeChar (Char.ofNat code), rest)

/-- The bytes of the character that an escape stands for, after the backslash. -/
def readEscape : Reader (List UInt8)
  | [] => stopAt .endInString []
  | 34 :: rest => .ok ([34], rest)
  | 92 :: rest => .ok ([92], rest)
  | 47 :: rest => .ok ([47], rest)
  | 98 :: rest => .ok ([8], rest)
  | 102 :: rest => .ok ([12], rest)
  | 110 :: rest => .ok ([10], rest)
  | 114 :: rest => .ok ([13], rest)
  | 116 :: rest => .ok ([9], rest)
  | 117 :: rest => do
    let (code, rest) ← readHex rest
    if 0xDC00 ≤ code && code ≤ 0xDFFF then stopAt .loneSurrogate rest
    else if 0xD800 ≤ code && code ≤ 0xDBFF then readLowSurrogate code rest
    else return (String.utf8EncodeChar (Char.ofNat code), rest)
  | _ :: rest => stopAt .invalidEscape rest

/-- The bytes of a string up to its closing quotation mark. -/
def readBytes : (fuel : Nat) → (seen : List UInt8) → Reader (List UInt8)
  | 0, _, _ => stopAt .endInString []
  | _ + 1, _, [] => stopAt .endInString []
  | fuel + 1, seen, b :: rest =>
    if b = 34 then .ok (seen.reverse, rest)
    else if b = 92 then do
      let (bytes, rest) ← readEscape rest
      readBytes fuel (bytes.reverse ++ seen) rest
    else if b < 32 then stopAt .controlCharacter rest
    else readBytes fuel (b :: seen) rest

/-- The text of a string whose opening quotation mark has been read. What is no text is reported as
many bytes before the string's end as its meaning has from the first byte on that belongs to no
character. -/
def readString : Reader String := fun s => do
  let (bytes, rest) ← readBytes (s.length + 1) [] s
  match Utf8.decode? bytes with
  | some text => return (text, rest)
  | none =>
    let remaining := bytes.length - Utf8.textLength bytes
    stopAt .invalidUnicode (s.drop (s.length - rest.length - remaining))

/-! ### Numbers -/

inductive Number where
  | unsigned (n : Nat)
  | negative (n : Nat)
  | double (f : Float)

def Number.found : Number → Found
  | .unsigned n => .integer n
  | .negative n => .integer (-n)
  | .double f => .float (Decimal.text f)

/-- Digits as long as the value stays below `2 ^ 64`: the value, how many there were, and the rest.
-/
def gatherDigits : (value count : Nat) → List UInt8 → Nat × Nat × List UInt8
  | value, count, [] => (value, count, [])
  | value, count, b :: rest =>
    let next := value * 10 + (b.toNat - 48)
    if isDigit b && next < Nat.pow 2 64 then gatherDigits next (count + 1) rest
    else (value, count, b :: rest)

/-- The double `value * 10 ^ exponent`, in steps of at most 308 powers, unless out of range. -/
def scale : (fuel : Nat) → (value : Float) → (exponent : Int) → Option Float
  | 0, value, _ => some value
  | fuel + 1, value, exponent =>
    if 0 ≤ exponent then
      if exponent ≤ 308 then
        let scaled := value * Float.ofScientific 1 false exponent.toNat
        if scaled.isInf then none else some scaled
      else if value == 0.0 then some value
      else none
    else if -308 ≤ exponent then some (value / Float.ofScientific 1 false exponent.natAbs)
    else if value == 0.0 then some value
    else scale fuel (value / Float.ofScientific 1 false 308) (exponent + 308)

/-- The double with these digits and this power of ten. -/
def readScaled (positive : Bool) (digits : Nat) (exponent : Int) : Reader Number := fun s =>
  match scale 8 digits.toUInt64.toFloat exponent with
  | some f => .ok (.double (if positive then f else -f), s)
  | none => stopAt .numberOutOfRange s

/-- The digits of an exponent as long as they fit into 31 bits. The flag says that they did not. -/
def gatherExponent : (value : Nat) → List UInt8 → Nat × Bool × List UInt8
  | value, [] => (value, false, [])
  | value, b :: rest =>
    if isDigit b then
      let next := value * 10 + (b.toNat - 48)
      if next < Nat.pow 2 31 then gatherExponent next rest else (value, true, rest)
    else (value, false, b :: rest)

/-- What follows the `e` of a number. -/
def readExponent (positive : Bool) (digits : Nat) (power : Int) : Reader Number := fun s =>
  let (up, s) :=
    match s with
    | 43 :: rest => (true, rest)
    | 45 :: rest => (false, rest)
    | _ => (true, s)
  match s with
  | [] => stopAt .endInValue []
  | b :: rest =>
    if !isDigit b then stopAt .invalidNumber rest
    else
      match gatherExponent (b.toNat - 48) rest with
      | (_, true, rest) =>
        if digits ≠ 0 ∧ up then stopAt .numberOutOfRange rest
        else .ok (.double (if positive then 0.0 else -0.0), rest.dropWhile isDigit)
      | (exponent, false, rest) =>
        readScaled positive digits (if up then power + exponent else power - exponent) rest

def readPower (positive : Bool) (digits : Nat) (power : Int) : Reader Number := fun s =>
  match s with
  | 101 :: rest => readExponent positive digits power rest
  | 69 :: rest => readExponent positive digits power rest
  | _ => readScaled positive digits power s

/-- What follows the point of a number. -/
def readFraction (positive : Bool) (digits : Nat) (power : Int) : Reader Number := fun s =>
  let (value, count, rest) := gatherDigits digits 0 s
  if startsWithDigit rest then
    readPower positive value (power - count) (rest.dropWhile isDigit)
  else if count = 0 then
    if rest.isEmpty then stopAt .endInValue [] else stopOn .invalidNumber rest
  else readPower positive value (power - count) rest

/-- A number after its sign. Minus zero is a double. -/
def readNumber (positive : Bool) : Reader Number
  | [] => stopAt .endInValue []
  | b :: rest =>
    if !isDigit b then stopAt .invalidNumber rest
    else if b = 48 && startsWithDigit rest then stopOn .invalidNumber rest
    else
      let (value, _, rest) := gatherDigits (b.toNat - 48) 0 rest
      if startsWithDigit rest then
        let more := rest.takeWhile isDigit
        match rest.dropWhile isDigit with
        | 46 :: rest => readFraction positive value more.length rest
        | rest => readPower positive value more.length rest
      else
        match rest with
        | 46 :: rest => readFraction positive value 0 rest
        | 101 :: rest => readExponent positive value 0 rest
        | 69 :: rest => readExponent positive value 0 rest
        | _ =>
          if positive then .ok (.unsigned value, rest)
          else if 1 ≤ value ∧ value ≤ Nat.pow 2 63 then .ok (.negative value, rest)
          else .ok (.double (-value.toUInt64.toFloat), rest)

/-! ### Values nobody asked for -/

def skipEscape : List UInt8 → Except Stop (List UInt8)
  | [] => stopAt .endInString []
  | 117 :: rest => do
    let (_, rest) ← readHex rest
    return rest
  | b :: rest =>
    if [34, 92, 47, 98, 102, 110, 114, 116].contains b then .ok rest
    else stopAt .invalidEscape rest

/-- To the end of a string whose opening quotation mark has been read. -/
def skipBytes : (fuel : Nat) → List UInt8 → Except Stop (List UInt8)
  | 0, _ => stopAt .endInString []
  | _ + 1, [] => stopAt .endInString []
  | fuel + 1, b :: rest =>
    if b = 34 then .ok rest
    else if b = 92 then do skipBytes fuel (← skipEscape rest)
    else if b < 32 then stopAt .controlCharacter (b :: rest)
    else skipBytes fuel rest

def skipString (s : List UInt8) : Except Stop (List UInt8) := skipBytes (s.length + 1) s

def skipExponent (s : List UInt8) : Except Stop (List UInt8) :=
  let s :=
    match s with
    | 43 :: rest => rest
    | 45 :: rest => rest
    | _ => s
  match s with
  | [] => stopAt .invalidNumber []
  | b :: rest => if isDigit b then .ok (rest.dropWhile isDigit) else stopAt .invalidNumber rest

def skipPower (s : List UInt8) : Except Stop (List UInt8) :=
  match s with
  | 101 :: rest => skipExponent rest
  | 69 :: rest => skipExponent rest
  | _ => .ok s

/-- To the end of a number after its sign. -/
def skipNumber : List UInt8 → Except Stop (List UInt8)
  | [] => stopAt .invalidNumber []
  | b :: rest =>
    if !isDigit b then stopAt .invalidNumber rest
    else if b = 48 && startsWithDigit rest then stopOn .invalidNumber rest
    else
      match rest.dropWhile isDigit with
      | 46 :: rest =>
        if startsWithDigit rest then skipPower (rest.dropWhile isDigit)
        else stopOn .invalidNumber rest
      | rest => skipPower rest

/-- An open bracket. -/
inductive Frame where
  | list
  | object
  deriving DecidableEq, Repr

def Frame.endFault : Frame → Fault
  | .list => .endInList
  | .object => .endInObject

def Frame.commaFault : Frame → Fault
  | .list => .expectedListComma
  | .object => .expectedObjectComma

def Frame.closing : Frame → UInt8
  | .list => 93
  | .object => 125

/-- A member's name and its colon. -/
def skipName (s : List UInt8) : Except Stop (List UInt8) :=
  match skipSpace s with
  | [] => stopAt .endInObject []
  | b :: rest =>
    if b ≠ 34 then stopOn .keyNotString (b :: rest)
    else do
      match skipSpace (← skipString rest) with
      | [] => stopAt .endInObject []
      | c :: rest => if c = 58 then .ok rest else stopOn .expectedColon (c :: rest)

/-- Where skipping stands: in front of a value, in front of an element of the innermost bracket,
or in that bracket after its opening or after an element of it. -/
inductive Skipping where
  | value
  | element
  | inside (accept : Bool)
  deriving DecidableEq, Repr

/-- Skip one value and, after it, what closes the open brackets, the innermost first. -/
def skip : (fuel : Nat) → Skipping → List Frame → List UInt8 → Except Stop (List UInt8)
  | 0, _, _, s => stopAt .expectedValue s
  | fuel + 1, .value, frames, s =>
    let scalar := fun (rest : Except Stop (List UInt8)) => do
      let rest ← rest
      if frames.isEmpty then .ok rest else skip fuel (.inside true) frames rest
    match skipSpace s with
    | [] => stopAt .endInValue []
    | 110 :: rest => scalar (readWord nullRest rest)
    | 116 :: rest => scalar (readWord trueRest rest)
    | 102 :: rest => scalar (readWord falseRest rest)
    | 45 :: rest => scalar (skipNumber rest)
    | 34 :: rest => scalar (skipString rest)
    | 91 :: rest => skip fuel (.inside false) (.list :: frames) rest
    | 123 :: rest => skip fuel (.inside false) (.object :: frames) rest
    | b :: rest =>
      if isDigit b then scalar (skipNumber (b :: rest)) else stopOn .expectedValue (b :: rest)
  | fuel + 1, .element, frames, s =>
    match frames with
    | .object :: _ => do skip fuel .value frames (← skipName s)
    | _ => skip fuel .value frames s
  | _ + 1, .inside _, [], s => .ok s
  | fuel + 1, .inside accept, frame :: outer, s =>
    match skipSpace s with
    | [] => stopAt frame.endFault []
    | b :: rest =>
      if b = 44 && accept then skip fuel .element (frame :: outer) rest
      else if b = frame.closing then
        if outer.isEmpty then .ok rest else skip fuel (.inside true) outer rest
      else if accept then stopOn frame.commaFault (b :: rest)
      else skip fuel .element (frame :: outer) (b :: rest)

/-- Skip one value. Every two steps use at least a byte. -/
def skipValue (s : List UInt8) : Except Stop (List UInt8) :=
  skip (3 * s.length + 3) .value [] s

end SigningProxy.Json
