/-!
# Base64

Three bytes are written as four symbols of six bits each. The standard alphabet pads its last quad
with `=`; the alphabet for addresses does not. Reading is strict: exactly the texts that writing
produces are accepted, so a run of bytes has one text.

What is reported about a text that is no base64 depends on the quad in which it goes wrong. A symbol
in a quad that others follow is wrong at its own place. In the last quad padding may stand from the
third place on, and then nothing may follow it.
-/

namespace SigningProxy.Base64

/-- The two symbols that vary between alphabets, and whether the last quad is padded. -/
structure Alphabet where
  sixtyTwo : UInt8
  sixtyThree : UInt8
  padded : Bool
  deriving DecidableEq, Repr

/-- Ends in `+/`, with padding. -/
def standard : Alphabet := ⟨43, 47, true⟩

/-- Ends in `-_`, without padding. -/
def urlSafe : Alphabet := ⟨45, 95, false⟩

/-- The sign that fills up the last quad. -/
def pad : UInt8 := 61

/-! ### Writing -/

/-- The symbol of six bits. -/
def Alphabet.symbol (a : Alphabet) (n : Nat) : UInt8 :=
  if n < 26 then (n + 65).toUInt8
  else if n < 52 then (n + 71).toUInt8
  else if n < 62 then (n - 4).toUInt8
  else if n = 62 then a.sixtyTwo
  else a.sixtyThree

/-- The symbols of these bytes. -/
def encode (a : Alphabet) : List UInt8 → List UInt8
  | [] => []
  | [x] =>
    [a.symbol (x.toNat / 4), a.symbol (x.toNat % 4 * 16)] ++
      if a.padded then [pad, pad] else []
  | [x, y] =>
    [a.symbol (x.toNat / 4), a.symbol (x.toNat % 4 * 16 + y.toNat / 16),
      a.symbol (y.toNat % 16 * 4)] ++ if a.padded then [pad] else []
  | x :: y :: z :: rest =>
    a.symbol (x.toNat / 4) :: a.symbol (x.toNat % 4 * 16 + y.toNat / 16) ::
      a.symbol (y.toNat % 16 * 4 + z.toNat / 64) :: a.symbol (z.toNat % 64) :: encode a rest

/-! ### Reading -/

/-- Why a text is no base64. -/
inductive Error where
  | symbol (byte : UInt8) (offset : Nat)
  | lastSymbol (byte : UInt8) (offset : Nat)
  | length (symbols : Nat)
  | padding
  deriving DecidableEq, Repr

def Error.message : Error → String
  | .symbol byte offset => s!"Invalid symbol {byte.toNat}, offset {offset}."
  | .lastSymbol byte offset => s!"Invalid last symbol {byte.toNat}, offset {offset}."
  | .length symbols => s!"Invalid input length: {symbols}"
  | .padding => "Invalid padding"

/-- The six bits of a symbol. -/
def Alphabet.value? (a : Alphabet) (b : UInt8) : Option Nat :=
  let n := b.toNat
  if 65 ≤ n ∧ n ≤ 90 then some (n - 65)
  else if 97 ≤ n ∧ n ≤ 122 then some (n - 71)
  else if 48 ≤ n ∧ n ≤ 57 then some (n + 4)
  else if b = a.sixtyTwo then some 62
  else if b = a.sixtyThree then some 63
  else none

/-- The six bits of the symbol at `offset`. -/
def Alphabet.read (a : Alphabet) (offset : Nat) (b : UInt8) : Except Error Nat :=
  match a.value? b with
  | some n => .ok n
  | none => .error (.symbol b offset)

/-- The last quad as far as it has been read: its symbols with their values, and its padding. -/
structure Quad where
  values : List Nat
  last : UInt8
  pads : Nat

/-- Read the last quad from its place `index` on; `start` is where the quad stands in the text. -/
def readQuad (a : Alphabet) (start : Nat) : (index : Nat) → Quad → List UInt8 → Except Error Quad
  | _, quad, [] => .ok quad
  | index, quad, b :: rest =>
    if b = pad then
      if index < 2 then .error (.symbol b (start + index))
      else readQuad a start (index + 1) { quad with pads := quad.pads + 1 } rest
    else if 0 < quad.pads then .error (.symbol pad (start + quad.values.length))
    else do
      let n ← a.read (start + index) b
      readQuad a start (index + 1) { quad with values := quad.values ++ [n], last := b } rest

/-- The bytes of the last quad. Bits that are left over are zero. -/
def decodeLast (a : Alphabet) (start : Nat) (text : List UInt8) : Except Error (List UInt8) := do
  let quad ← readQuad a start 0 ⟨[], 0, 0⟩ text
  if quad.values.length < 2 ∧ ¬(start = 0 ∧ text = []) then
    .error (.length (start + quad.values.length))
  else if a.padded && (quad.values.length + quad.pads) % 4 != 0 then .error .padding
  else if !a.padded && quad.pads != 0 then .error .padding
  else
    let lastSymbol := Error.lastSymbol quad.last (start + quad.values.length - 1)
    match quad.values with
    | [i, j] => if j % 16 = 0 then .ok [(i * 4 + j / 16).toUInt8] else .error lastSymbol
    | [i, j, k] =>
      if k % 4 = 0 then .ok [(i * 4 + j / 16).toUInt8, (j % 16 * 16 + k / 4).toUInt8]
      else .error lastSymbol
    | [i, j, k, l] =>
      .ok [(i * 4 + j / 16).toUInt8, (j % 16 * 16 + k / 4).toUInt8, (k % 4 * 64 + l).toUInt8]
    | _ => .ok []

/-- Read the quads from `start` on. -/
def decodeFrom (a : Alphabet) (start : Nat) : List UInt8 → Except Error (List UInt8)
  | x :: y :: z :: w :: next :: rest => do
    let i ← a.read start x
    let j ← a.read (start + 1) y
    let k ← a.read (start + 2) z
    let l ← a.read (start + 3) w
    let bytes ← decodeFrom a (start + 4) (next :: rest)
    return (i * 4 + j / 16).toUInt8 :: (j % 16 * 16 + k / 4).toUInt8 ::
      (k % 4 * 64 + l).toUInt8 :: bytes
  | last => decodeLast a start last

/-- The bytes that a text spells. A text of one symbol too many is blamed on that symbol first if it
is none. -/
def decode (a : Alphabet) (text : List UInt8) : Except Error (List UInt8) :=
  match text.getLast? with
  | some b =>
    if text.length % 4 = 1 ∧ b ≠ pad ∧ (a.value? b).isNone then
      .error (.symbol b (text.length - 1))
    else decodeFrom a 0 text
  | none => .ok []

end SigningProxy.Base64
