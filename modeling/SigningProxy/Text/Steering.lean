/-!
# Text that does not steer a terminal

A terminal takes some characters as orders: the controls that are no white space, and sequences that
an escape character opens. A text that is shown where no terminal may be is freed of them. White
space inside an unfinished sequence ends it and is shown; a sequence that is to be kept for the
terminal's own use (a title, a string of a device) runs until its end mark and shows nothing.
-/

namespace SigningProxy.Text

/-- Where reading stands: in the text, behind an escape character, behind it and the marks that may
follow it, in a sequence with parameters, in a title, or in a device's string. -/
inductive Steering where
  | shown
  | escape
  | marks
  | parameters
  | title
  | device
  deriving DecidableEq, Repr

namespace Steering

/-- The controls that are shown. -/
def isSpace (c : Char) : Bool := c == '\t' || c == '\n' || c == '\x0c' || c == '\r'

/-- What the character behind an escape character opens. -/
def opened (c : Char) : Steering :=
  if c = '[' then .parameters
  else if c = ']' then .title
  else if c = 'P' ∨ c = 'X' ∨ c = '^' ∨ c = '_' then .device
  else .shown

/-- Whether a character ends a device's string; what counts is a byte of it. -/
def endsDevice (c : Char) : Bool := (String.utf8EncodeChar c).contains 0x9C

/-- Where reading stands after a character, and whether the character is shown. -/
def step (s : Steering) (c : Char) : Steering × Bool :=
  let code := c.toNat
  if code = 0x1B then (.escape, false)
  else if code = 0x18 ∨ code = 0x1A then (.shown, false)
  else
    match s with
    | .shown => (.shown, isSpace c || (0x20 ≤ code && code ≠ 0x7F))
    | .title => (if code = 0x07 then .shown else .title, false)
    | .device => (if endsDevice c then .shown else .device, false)
    | s =>
      if isSpace c then (.shown, true)
      else if code < 0x20 ∨ 0x7F ≤ code then (s, false)
      else
        match s with
        | .parameters => (if 0x40 ≤ code then .shown else .parameters, false)
        | .marks => (if 0x30 ≤ code then .shown else .marks, false)
        | _ => (if code < 0x30 then .marks else opened c, false)

/-- The characters that are shown from here on. -/
def shownFrom : Steering → List Char → List Char
  | _, [] => []
  | s, c :: rest =>
    match s.step c with
    | (next, true) => c :: next.shownFrom rest
    | (next, false) => next.shownFrom rest

end Steering

/-- The text without what steers a terminal. -/
def withoutSteering (s : String) : String := String.ofList (Steering.shown.shownFrom s.toList)

end SigningProxy.Text
