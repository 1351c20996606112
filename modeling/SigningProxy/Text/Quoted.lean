import SigningProxy.Text.Unshown

/-!
# Quoted texts

Messages quote the texts they complain about: in double quotes, with the quotation mark and the
backslash escaped, the usual names for tab, line ends and NUL, and the number of every character
that is not shown as it is.
-/

namespace SigningProxy.Text

/-- One character inside quotation marks. -/
def quoteChar (c : Char) : List Char :=
  match c with
  | '"' => ['\\', '"']
  | '\\' => ['\\', '\\']
  | '\t' => ['\\', 't']
  | '\n' => ['\\', 'n']
  | '\r' => ['\\', 'r']
  | '\x00' => ['\\', '0']
  | _ =>
    if 0x20 ≤ c.toNat && c.toNat < 0x7F then [c]
    else if isUnshown c then
      ['\\', 'u', Char.ofNat 123] ++ Nat.toDigits 16 c.toNat ++ [Char.ofNat 125]
    else [c]

/-- A text in quotation marks. -/
def quoted (s : String) : String :=
  "\"" ++ String.ofList (s.toList.flatMap quoteChar) ++ "\""

end SigningProxy.Text
