import SigningProxy.Text.Utf8

/-!
# Header fields

The name of a field is a token, compared without regard to case and therefore kept in lower case.
Its value is a run of bytes without control characters other than the tab; the value has a text only
when every byte of it is visible ASCII, a blank or a tab.
-/

namespace SigningProxy

/-! ### Names -/

/-- The characters of a name in its kept form. -/
def isFieldNameChar (c : Char) : Bool :=
  c.isLower || c.isDigit || "!\"#$%&'*+-.^_`|~".toList.contains c

/-- A field name in lower case. -/
structure FieldName where
  text : String
  valid : (!text.toList.isEmpty && text.toList.all isFieldNameChar) = true
  deriving DecidableEq

namespace FieldName

instance : Repr FieldName := ⟨fun n => reprPrec n.text⟩

/-- Read a name, in any case. Names are at most `2 ^ 16 - 1` characters long. -/
def ofChars? (s : List Char) : Option FieldName :=
  let text := String.ofList (s.map Char.toLower)
  if h : (!text.toList.isEmpty && text.toList.all isFieldNameChar) = true then
    if s.length ≤ 65535 then some ⟨text, h⟩ else none
  else none

def ofBytes? (bytes : List UInt8) : Option FieldName :=
  ofChars? (bytes.map fun b => Char.ofNat b.toNat)

end FieldName

/-! ### Values -/

/-- Every byte but the controls; the tab is allowed. -/
def isFieldByte (b : UInt8) : Bool := b == 9 || (32 ≤ b && b ≠ 127)

/-- Visible ASCII, the blank and the tab. -/
def isTextByte (b : UInt8) : Bool := b == 9 || (32 ≤ b && b < 127)

structure FieldValue where
  bytes : List UInt8
  valid : bytes.all isFieldByte = true
  deriving DecidableEq

namespace FieldValue

instance : Repr FieldValue := ⟨fun v => reprPrec v.bytes⟩

def ofBytes? (bytes : List UInt8) : Option FieldValue :=
  if h : bytes.all isFieldByte = true then some ⟨bytes, h⟩ else none

def ofString? (s : String) : Option FieldValue :=
  ofBytes? (Utf8.encode s)

/-- The value as a text. -/
def text? (v : FieldValue) : Option String :=
  if v.bytes.all isTextByte then some (String.ofList (v.bytes.map fun b => Char.ofNat b.toNat))
  else none

end FieldValue

end SigningProxy
