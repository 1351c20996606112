/-!
# Texts as bytes

Bodies and field values are bytes, messages and claims are texts. A text is written in UTF-8, and
bytes are read back as a text only when they are well-formed UTF-8.
-/

namespace SigningProxy.Utf8

/-- The bytes of a text. -/
def encode (s : String) : List UInt8 :=
  s.toList.flatMap String.utf8EncodeChar

/-- The text whose bytes these are. -/
def decode? (bytes : List UInt8) : Option String :=
  String.fromUTF8? ⟨bytes.toArray⟩

/-- How many bytes the character at the front takes up, if there is one. -/
def charLength? (bytes : List UInt8) : Option Nat :=
  [1, 2, 3, 4].find? fun n => (decode? (bytes.take n)).isSome

/-- How many bytes the longest well-formed text at the front takes up. -/
def textLength : List UInt8 → Nat
  | [] => 0
  | b :: rest =>
    match charLength? (b :: rest) with
    | none => 0
    | some n => n + textLength (rest.drop (n - 1))
termination_by bytes => bytes.length
decreasing_by simp only [List.length_cons, List.length_drop]; omega

end SigningProxy.Utf8
