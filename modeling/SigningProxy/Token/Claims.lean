import SigningProxy.Json.Record

/-!
# Claims

What a signature vouches for: who issued it, when, and for which method and path. Claims are written
as a record of four fields without blanks; all four have to be there when they are read.
-/

namespace SigningProxy

structure Claims where
  issuer : String
  issuedAt : Nat
  method : String
  path : String
  deriving DecidableEq, Repr

namespace Claims

def spec : Json.RecordSpec where
  title := "struct Claims"
  fields :=
    [⟨"iss", .text, true⟩, ⟨"iat", .count, true⟩, ⟨"method", .text, true⟩, ⟨"path", .text, true⟩]

def entries (c : Claims) : Json.Entries :=
  [("iss", .text c.issuer), ("iat", .count c.issuedAt), ("method", .text c.method),
    ("path", .text c.path)]

def write (c : Claims) : List UInt8 := Utf8.encode (Json.writeCompact c.entries)

private def textOf (entries : Json.Entries) (name : String) : String :=
  match entries.lookup name with
  | some (.text value) => value
  | _ => ""

private def countOf (entries : Json.Entries) (name : String) : Nat :=
  match entries.lookup name with
  | some (.count value) => value
  | _ => 0

def read (document : List UInt8) : Except Json.Error Claims := do
  let entries ← Json.readRecord spec document
  return ⟨textOf entries "iss", countOf entries "iat", textOf entries "method",
    textOf entries "path"⟩

end Claims

end SigningProxy
