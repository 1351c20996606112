/-!
# Network addresses

The addresses of hosts and of listening sockets, in their two families. Reading is strict: an octet
of the dotted form has no leading zero, a group of the colon form at most four digits, and a run of
zero groups may be left out once. Writing leaves out the first longest run of at least two zero
groups.
-/

namespace SigningProxy

/-- The address of a host. -/
inductive IpAddress where
  | v4 (a b c d : UInt8)
  | v6 (groups : List UInt16) (eight : groups.length = 8)
  deriving DecidableEq

namespace IpAddress

/-! ### Reading -/

/-- The value of a digit in a base up to sixteen. -/
def digit? (base : Nat) (c : Char) : Option Nat :=
  let n :=
    if c.isDigit then c.toNat - 48
    else if 'a' ≤ c ∧ c ≤ 'f' then c.toNat - 87
    else if 'A' ≤ c ∧ c ≤ 'F' then c.toNat - 55
    else base
  if n < base then some n else none

/-- A number at the front of `s`: at least one digit, and a value of at most `bound`. -/
def readNumber (base bound : Nat) (s : List Char) : Option (Nat × List Char) :=
  let digits := s.takeWhile fun c => (digit? base c).isSome
  let value := (digits.filterMap (digit? base)).foldl (fun n d => n * base + d) 0
  if digits.isEmpty || bound < value then none else some (value, s.drop digits.length)

/-- How many digits of the base stand at the front of `s`. -/
private def digitCount (base : Nat) (s : List Char) : Nat :=
  (s.takeWhile fun c => (digit? base c).isSome).length

/-- An octet: no leading zero, at most three digits. -/
def readOctet (s : List Char) : Option (UInt8 × List Char) :=
  if 3 < digitCount 10 s then none
  else if s.head? = some '0' ∧ 1 < digitCount 10 s then none
  else (readNumber 10 255 s).map fun (n, rest) => (n.toUInt8, rest)

/-- A group: at most four hexadecimal digits. -/
def readGroup (s : List Char) : Option (UInt16 × List Char) :=
  if 4 < digitCount 16 s then none
  else (readNumber 16 65535 s).map fun (n, rest) => (n.toUInt16, rest)

def readChar (c : Char) : List Char → Option (List Char)
  | d :: rest => if c = d then some rest else none
  | [] => none

def readDotted (s : List Char) : Option ((UInt8 × UInt8 × UInt8 × UInt8) × List Char) := do
  let (a, s) ← readOctet s
  let (b, s) ← readOctet (← readChar '.' s)
  let (c, s) ← readOctet (← readChar '.' s)
  let (d, s) ← readOctet (← readChar '.' s)
  return ((a, b, c, d), s)

/-- As many groups as there are, up to `room`. Where two still fit, a dotted address may stand for
the last two; the flag says that one did. -/
def readGroups : (room : Nat) → (first : Bool) → List Char → List UInt16 × Bool × List Char
  | 0, _, s => ([], false, s)
  | room + 1, first, s =>
    let here := if first then some s else readChar ':' s
    match (if 1 ≤ room then here.bind readDotted else none) with
    | some ((a, b, c, d), rest) =>
      ([a.toUInt16 * 256 + b.toUInt16, c.toUInt16 * 256 + d.toUInt16], true, rest)
    | none =>
      match here.bind readGroup with
      | none => ([], false, s)
      | some (group, rest) =>
        let (groups, dotted, rest) := readGroups room false rest
        (group :: groups, dotted, rest)

/-- Eight groups, or fewer around a `::`. A dotted address ends the text it stands in. -/
def readColons (s : List Char) : Option (List UInt16 × List Char) :=
  let (head, dotted, rest) := readGroups 8 true s
  if head.length = 8 then some (head, rest)
  else if dotted then none
  else do
    let rest ← readChar ':' (← readChar ':' rest)
    let (tail, _, rest) := readGroups (7 - head.length) true rest
    return (head ++ List.replicate (8 - head.length - tail.length) 0 ++ tail, rest)

def readV4 (s : List Char) : Option (IpAddress × List Char) :=
  (readDotted s).map fun ((a, b, c, d), rest) => (v4 a b c d, rest)

def readV6 (s : List Char) : Option (IpAddress × List Char) := do
  let (groups, rest) ← readColons s
  if h : groups.length = 8 then return (v6 groups h, rest) else none

/-- The address that a whole text spells. -/
def ofText? (text : String) : Option IpAddress :=
  match (readV4 text.toList).orElse fun _ => readV6 text.toList with
  | some (ip, []) => some ip
  | _ => none

/-! ### Writing -/

def dotted (a b c d : UInt8) : String :=
  ".".intercalate ([a, b, c, d].map fun n => toString n.toNat)

def hexGroups (groups : List UInt16) : String :=
  ":".intercalate (groups.map fun g => String.ofList (Nat.toDigits 16 g.toNat))

/-- The place and length of the first longest run of zero groups. -/
def zeroRun (groups : List UInt16) : Nat × Nat :=
  let runs := (List.range groups.length).map fun i => ((groups.drop i).takeWhile (· == 0)).length
  let longest := runs.foldl max 0
  (runs.idxOf longest, longest)

/-- The written form of eight groups. A dotted address that is mapped into the colon form stays
dotted. -/
def colons : List UInt16 → String
  | [0, 0, 0, 0, 0, 0xFFFF, hi, lo] =>
    "::ffff:" ++ dotted (hi / 256).toUInt8 hi.toUInt8 (lo / 256).toUInt8 lo.toUInt8
  | groups =>
    let (start, length) := zeroRun groups
    if 1 < length then
      hexGroups (groups.take start) ++ "::" ++ hexGroups (groups.drop (start + length))
    else hexGroups groups

/-- The written form. -/
def text : IpAddress → String
  | v4 a b c d => dotted a b c d
  | v6 groups _ => colons groups

instance : Repr IpAddress := ⟨fun ip => reprPrec ip.text⟩

end IpAddress

/-- Where a server listens. Only an address of the colon form can have a scope. -/
structure SocketAddress where
  ip : IpAddress
  scope : Nat
  port : Nat
  deriving DecidableEq, Repr

namespace SocketAddress

private def readPort (s : List Char) : Option (Nat × List Char) := do
  IpAddress.readNumber 10 65535 (← IpAddress.readChar ':' s)

private def readDotted (s : List Char) : Option (SocketAddress × List Char) := do
  let (ip, s) ← IpAddress.readV4 s
  let (port, s) ← readPort s
  return (⟨ip, 0, port⟩, s)

private def readBracketed (s : List Char) : Option (SocketAddress × List Char) := do
  let (ip, s) ← IpAddress.readV6 (← IpAddress.readChar '[' s)
  let (scope, s) :=
    match (IpAddress.readChar '%' s).bind (IpAddress.readNumber 10 (Nat.pow 2 32 - 1)) with
    | some (scope, rest) => (scope, rest)
    | none => (0, s)
  let (port, s) ← readPort (← IpAddress.readChar ']' s)
  return (⟨ip, scope, port⟩, s)

/-- The socket address that a whole text spells. -/
def ofText? (text : String) : Option SocketAddress :=
  match (readDotted text.toList).orElse fun _ => readBracketed text.toList with
  | some (address, []) => some address
  | _ => none

/-- The written form. -/
def text (a : SocketAddress) : String :=
  match a.ip with
  | .v4 .. => a.ip.text ++ ":" ++ toString a.port
  | .v6 .. =>
    let scope := if a.scope = 0 then "" else "%" ++ toString a.scope
    "[" ++ a.ip.text ++ scope ++ "]:" ++ toString a.port

end SocketAddress

end SigningProxy
