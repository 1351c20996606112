import SigningProxy.Text.Cut

/-!
# The parts of an authority

An authority is a host with an optional user name before it and an optional port behind it:
`user@host:port`. The user name ends at the last `@`; a host in brackets may hold colons of its own,
so the port is what follows the last colon behind the last bracket.
-/

namespace SigningProxy.Authority

/-- The host and its port, without a user name. -/
def hostAndPort (authority : List Char) : List Char := Text.afterLast '@' authority

/-- The text of the port, which may be empty. -/
def port? (authority : String) : Option String :=
  let behind := Text.afterLast ']' (hostAndPort authority.toList)
  (Text.cutLast? ':' behind).map fun (_, port) => String.ofList port

/-- The number that decimal digits spell. -/
def portNumber (digits : List Char) : Nat :=
  digits.foldl (fun n c => 10 * n + (c.toNat - 48)) 0

/-- A number of 16 bits in decimal digits, with or without a plus sign in front. -/
def isPort (text : String) : Bool :=
  let digits := match text.toList with
    | '+' :: digits => digits
    | digits => digits
  !digits.isEmpty && digits.all Char.isDigit && portNumber digits ≤ 65535

/-- The port text that no connection could be made to, if there is one. Where the text is empty, or
no port is given, the scheme tells which port is meant. -/
def badPort? (authority : String) : Option String :=
  (port? authority).filter fun port => !port.isEmpty && !isPort port

end SigningProxy.Authority
