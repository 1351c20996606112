import SigningProxy.Text.Quoted

/-!
# What can be wrong with a document

Reading stops at the first fault. A fault is reported with the line and the column at which reading
stood: the line counts from one, the column is the number of bytes since the line began. Some faults
are noticed on the byte that comes next, and that byte is then counted in.
-/

namespace SigningProxy.Json

/-- A value of the wrong kind, as a message names it. -/
inductive Found where
  | null
  | bool (value : Bool)
  | integer (value : Int)
  | float (text : String)
  | string (text : String)
  | sequence
  | map
  deriving DecidableEq, Repr

def Found.message : Found → String
  | .null => "null"
  | .bool value => s!"boolean `{value}`"
  | .integer value => s!"integer `{value}`"
  | .float text => s!"floating point `{text}`"
  | .string text => "string " ++ Text.quoted text
  | .sequence => "sequence"
  | .map => "map"

inductive Fault where
  | endInList
  | endInObject
  | endInString
  | endInValue
  | expectedColon
  | expectedListComma
  | expectedObjectComma
  | expectedWord
  | expectedValue
  | invalidEscape
  | invalidNumber
  | numberOutOfRange
  | invalidUnicode
  | controlCharacter
  | keyNotString
  | loneSurrogate
  | cutSurrogate
  | trailingComma
  | trailingCharacters
  | wrongType (found : Found) (expected : String)
  | wrongValue (found : Found) (expected : String)
  | wrongLength (length : Nat) (expected : String)
  | missingField (name : String)
  | duplicateField (name : String)
  deriving DecidableEq, Repr

def Fault.message : Fault → String
  | endInList => "EOF while parsing a list"
  | endInObject => "EOF while parsing an object"
  | endInString => "EOF while parsing a string"
  | endInValue => "EOF while parsing a value"
  | expectedColon => "expected `:`"
  | expectedListComma => "expected `,` or `]`"
  | expectedObjectComma => "expected `,` or `\x7d`"
  | expectedWord => "expected ident"
  | expectedValue => "expected value"
  | invalidEscape => "invalid escape"
  | invalidNumber => "invalid number"
  | numberOutOfRange => "number out of range"
  | invalidUnicode => "invalid unicode code point"
  | controlCharacter =>
    "control character (\\u0000-\\u001F) found while parsing a string"
  | keyNotString => "key must be a string"
  | loneSurrogate => "lone leading surrogate in hex escape"
  | cutSurrogate => "unexpected end of hex escape"
  | trailingComma => "trailing comma"
  | trailingCharacters => "trailing characters"
  | wrongType found expected => "invalid type: " ++ found.message ++ ", expected " ++ expected
  | wrongValue found expected => "invalid value: " ++ found.message ++ ", expected " ++ expected
  | wrongLength length expected => s!"invalid length {length}, expected " ++ expected
  | missingField name => s!"missing field `{name}`"
  | duplicateField name => s!"duplicate field `{name}`"

/-- Where reading stopped: the fault, and what of the document was still unread. -/
structure Stop where
  fault : Fault
  rest : List UInt8
  deriving DecidableEq, Repr

/-- A fault with its place in the document. -/
structure Error where
  fault : Fault
  line : Nat
  column : Nat
  deriving DecidableEq, Repr

def Error.message (e : Error) : String :=
  e.fault.message ++ s!" at line {e.line} column {e.column}"

/-- The place at which a reader of `document` stopped. -/
def Stop.locate (document : List UInt8) (stop : Stop) : Error :=
  let consumed := document.take (document.length - stop.rest.length)
  { fault := stop.fault
    line := consumed.count 10 + 1
    column := (consumed.reverse.takeWhile (· ≠ 10)).length }

/-- Readers take the front of a document and leave the rest. -/
abbrev Reader (α : Type) := List UInt8 → Except Stop (α × List UInt8)

/-- Stop in front of `s`. -/
def stopAt {α : Type} (fault : Fault) (s : List UInt8) : Except Stop α :=
  .error ⟨fault, s⟩

/-- Stop at the next byte of `s`, if there is one. -/
def stopOn {α : Type} (fault : Fault) (s : List UInt8) : Except Stop α :=
  .error ⟨fault, s.drop 1⟩

end SigningProxy.Json
