import SigningProxy.Json.Lexeme

/-!
# Reading and writing records

A record is a document with a fixed list of named fields. It is written as an object with the fields
in their order. It may be read from an object, in any order and among members of other names, or
from a list that holds the values in the order of the fields. A field that does not have to be there
may be missing; one that is there twice is a fault.
-/

namespace SigningProxy.Json

/-- What a field holds. -/
inductive FieldKind where
  | text
  | path
  | count
  | optionalCount
  deriving DecidableEq, Repr

structure FieldSpec where
  name : String
  kind : FieldKind
  required : Bool
  deriving DecidableEq, Repr

/-- A kind of record: how messages call it, and its fields in order. -/
structure RecordSpec where
  title : String
  fields : List FieldSpec
  deriving DecidableEq, Repr

/-- The value of a field. An optional count may be given as absent. -/
inductive Scalar where
  | text (value : String)
  | count (value : Nat)
  | absent
  deriving DecidableEq, Repr

/-! ### Reading -/

/-- Refuse the value in front, which is of another kind than expected. -/
def refuse {α : Type} (expected : String) (s : List UInt8) : Except Stop α :=
  let wrong := fun found rest => stopAt (α := α) (.wrongType found expected) rest
  match s with
  | [] => stopAt .expectedValue []
  | 110 :: rest => do wrong .null (← readWord nullRest rest)
  | 116 :: rest => do wrong (.bool true) (← readWord trueRest rest)
  | 102 :: rest => do wrong (.bool false) (← readWord falseRest rest)
  | 45 :: rest => do
    let (number, rest) ← readNumber false rest
    wrong number.found rest
  | 34 :: rest => do
    let (text, rest) ← readString rest
    wrong (.string text) rest
  | 91 :: _ => wrong .sequence s
  | 123 :: _ => wrong .map s
  | b :: _ =>
    if isDigit b then do
      let (number, rest) ← readNumber true s
      wrong number.found rest
    else stopOn .expectedValue s

def readText (expected : String) : Reader Scalar := fun s =>
  match skipSpace s with
  | [] => stopAt .endInValue []
  | 34 :: rest => do
    let (text, rest) ← readString rest
    return (.text text, rest)
  | s => refuse expected s

/-- A count of 64 bits. -/
def readCount : Reader Scalar := fun s =>
  let accept : Number × List UInt8 → Except Stop (Scalar × List UInt8) := fun (number, rest) =>
    match number with
    | .unsigned n => .ok (.count n, rest)
    | .negative _ => stopAt (.wrongValue number.found "u64") rest
    | .double _ => stopAt (.wrongType number.found "u64") rest
  match skipSpace s with
  | [] => stopAt .endInValue []
  | 45 :: rest => do accept (← readNumber false rest)
  | b :: rest =>
    if isDigit b then do accept (← readNumber true (b :: rest)) else refuse "u64" (b :: rest)

def readScalar (kind : FieldKind) : Reader Scalar := fun s =>
  match kind with
  | .text => readText "a string" s
  | .path => readText "path string" s
  | .count => readCount s
  | .optionalCount =>
    match skipSpace s with
    | 110 :: rest => do
      let rest ← readWord nullRest rest
      return (.absent, rest)
    | s => readCount s

/-- The colon between a name and its value. -/
def readColon (s : List UInt8) : Except Stop (List UInt8) :=
  match skipSpace s with
  | [] => stopAt .endInObject []
  | b :: rest => if b = 58 then .ok rest else stopOn .expectedColon (b :: rest)

/-- Fields that have been read, in the order of reading. -/
abbrev Entries := List (String × Scalar)

/-- The first field that has to be there and is not. -/
def RecordSpec.missing? (spec : RecordSpec) (entries : Entries) : Option FieldSpec :=
  spec.fields.find? fun f => f.required && (entries.lookup f.name).isNone

/-- Close an object before complaining about what was in it. -/
def closeObject (s : List UInt8) : List UInt8 :=
  match skipSpace s with
  | 125 :: rest => rest
  | s => s

/-- One member of an object, from the quotation mark of its name on. -/
def readMember (spec : RecordSpec) (entries : Entries) (s : List UInt8) :
    Except Stop (Entries × List UInt8) := do
  let (name, rest) ← readString s
  match spec.fields.find? (·.name == name) with
  | none =>
    let rest ← skipValue (← readColon rest)
    return (entries, rest)
  | some field =>
    if (entries.lookup name).isSome then stopAt (.duplicateField name) (closeObject rest)
    else
      let (value, rest) ← readScalar field.kind (← readColon rest)
      return (entries ++ [(name, value)], rest)

/-- The members of an object after its opening brace or after a member. -/
def readMembers (spec : RecordSpec) : (fuel : Nat) → (first : Bool) → Entries → Reader Entries
  | 0, _, _, _ => stopAt .endInObject []
  | fuel + 1, first, entries, s =>
    let member := fun rest => do
      let (entries, rest) ← readMember spec entries rest
      readMembers spec fuel false entries rest
    match skipSpace s with
    | [] => stopAt .endInObject []
    | b :: rest =>
      if b = 125 then
        match spec.missing? entries with
        | some field => stopAt (.missingField field.name) rest
        | none => .ok (entries, rest)
      else if first then
        if b = 34 then member rest else stopOn .keyNotString (b :: rest)
      else if b = 44 then
        match skipSpace rest with
        | [] => stopAt .endInValue []
        | c :: rest =>
          if c = 34 then member rest
          else if c = 125 then stopOn .trailingComma (c :: rest)
          else stopOn .keyNotString (c :: rest)
      else stopOn .expectedObjectComma (b :: rest)

/-- The elements of a list, one for each field. A list may end early in front of a field that does
not have to be there. -/
def readElements (spec : RecordSpec) : (first : Bool) → List FieldSpec → Entries → Reader Entries
  | _, [], entries, s =>
    match skipSpace s with
    | [] => stopAt .endInList []
    | b :: rest =>
      if b = 93 then .ok (entries, rest)
      else if b = 44 then
        match skipSpace rest with
        | 93 :: rest => stopOn .trailingComma (93 :: rest)
        | rest => stopOn .trailingCharacters rest
      else stopOn .trailingCharacters (b :: rest)
  | first, field :: fields, entries, s =>
    let element := fun s => do
      let (value, rest) ← readScalar field.kind s
      readElements spec false fields (entries ++ [(field.name, value)]) rest
    match skipSpace s with
    | [] => stopAt .endInList []
    | b :: rest =>
      if b = 93 then
        if (field :: fields).any (·.required) then
          stopAt
            (.wrongLength entries.length s!"{spec.title} with {spec.fields.length} elements") rest
        else .ok (entries, rest)
      else if first then element (b :: rest)
      else if b = 44 then
        match skipSpace rest with
        | [] => stopAt .endInValue []
        | c :: rest =>
          if c = 93 then stopOn .trailingComma (c :: rest) else element (c :: rest)
      else stopOn .expectedListComma (b :: rest)

/-- A record in front of `s`. -/
def readEntries (spec : RecordSpec) : Reader Entries := fun s =>
  match skipSpace s with
  | [] => stopAt .endInValue []
  | 91 :: rest => readElements spec true spec.fields [] rest
  | 123 :: rest => readMembers spec (rest.length + 1) true [] rest
  | s => refuse spec.title s

/-- The record that a whole document holds. -/
def readRecord (spec : RecordSpec) (document : List UInt8) : Except Error Entries :=
  let result := do
    let (entries, rest) ← readEntries spec document
    match skipSpace rest with
    | [] => .ok entries
    | rest => stopOn .trailingCharacters rest
  result.mapError (·.locate document)

/-! ### Writing -/

/-- One character inside quotation marks. -/
def escapeChar (c : Char) : List Char :=
  match c with
  | '"' => ['\\', '"']
  | '\\' => ['\\', '\\']
  | '\x08' => ['\\', 'b']
  | '\x0c' => ['\\', 'f']
  | '\n' => ['\\', 'n']
  | '\r' => ['\\', 'r']
  | '\t' => ['\\', 't']
  | _ =>
    if c.toNat < 32 then
      ['\\', 'u', '0', '0', Nat.digitChar (c.toNat / 16), Nat.digitChar (c.toNat % 16)]
    else [c]

def writeString (s : String) : String :=
  "\"" ++ String.ofList (s.toList.flatMap escapeChar) ++ "\""

def Scalar.write : Scalar → String
  | .text value => writeString value
  | .count value => toString value
  | .absent => "null"

/-- An object on one line. -/
def writeCompact (entries : Entries) : String :=
  "\x7b" ++ ",".intercalate (entries.map fun (name, value) =>
    writeString name ++ ":" ++ value.write) ++ "\x7d"

/-- An object with one member on each line. -/
def writePretty (entries : Entries) : String :=
  "\x7b\n" ++ ",\n".intercalate (entries.map fun (name, value) =>
    "  " ++ writeString name ++ ": " ++ value.write) ++ "\n\x7d"

end SigningProxy.Json
