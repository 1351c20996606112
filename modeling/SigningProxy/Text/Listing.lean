import SigningProxy.Text.Quoted

/-!
# Listings

A record of values is listed with one field on each line, and a value that may be missing with its
own lines when it is there.
-/

namespace SigningProxy.Text

/-- A value in a listing. -/
inductive Listed where
  | text (value : String)
  | number (value : Nat)
  | flag (value : Bool)
  | missing
  | present (value : Listed)
  deriving Repr

namespace Listed

/-- A text that may be missing. -/
def ofText? : Option String → Listed
  | some value => .present (.text value)
  | none => .missing

/-- A number that may be missing. -/
def ofNumber? : Option Nat → Listed
  | some value => .present (.number value)
  | none => .missing

/-- Indentation of `depth` levels. -/
def indent (depth : Nat) : String := String.ofList (List.replicate (4 * depth) ' ')

/-- A value whose further lines belong to the level `depth`. -/
def write (depth : Nat) : Listed → String
  | .text value => quoted value
  | .number value => toString value
  | .flag value => toString value
  | .missing => "None"
  | .present value =>
    "Some(\n" ++ indent (depth + 1) ++ value.write (depth + 1) ++ ",\n" ++ indent depth ++ ")"

end Listed

/-- A record with its name and its fields. -/
def listing (name : String) (fields : List (String × Listed)) : String :=
  let lines := fields.map fun (field, value) =>
    Listed.indent 1 ++ field ++ ": " ++ value.write 1 ++ ",\n"
  name ++ " \x7b\n" ++ String.join lines ++ "\x7d"

end SigningProxy.Text
