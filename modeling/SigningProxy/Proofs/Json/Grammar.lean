import SigningProxy.Json.Lexeme

/-!
# The grammar of documents

What a document may look like, rule by rule, without a reader. A string is related to the text that
it stands for. In a value that nobody asked for it need not stand for one: there, an escaped half of
a pair may be alone. A number stands for nothing here.
-/

namespace SigningProxy.Json

/-- Nothing but blanks. -/
def Gap (s : List Char) : Prop := ∀ c ∈ s, c ∈ [' ', '\t', '\n', '\r']

instance (s : List Char) : Decidable (Gap s) :=
  List.decidableBAll (· ∈ [' ', '\t', '\n', '\r']) s

/-! ### Numbers -/

/-- At least one digit, and nothing else. -/
def Digits (s : List Char) : Prop := s ≠ [] ∧ ∀ c ∈ s, c.isDigit = true

/-- No zero stands in front of other digits. -/
inductive Whole : List Char → Prop
  | zero : Whole ['0']
  | digits {c : Char} {s : List Char} : c ≠ '0' → Digits (c :: s) → Whole (c :: s)

inductive Fraction : List Char → Prop
  | none : Fraction []
  | digits {s : List Char} : Digits s → Fraction ('.' :: s)

inductive Exponent : List Char → Prop
  | none : Exponent []
  | digits {mark : Char} {sign s : List Char} :
      mark ∈ ['e', 'E'] → sign ∈ [[], ['+'], ['-']] → Digits s → Exponent (mark :: (sign ++ s))

inductive Magnitude : List Char → Prop
  | parts {s t u : List Char} : Whole s → Fraction t → Exponent u → Magnitude (s ++ (t ++ u))

inductive Numeral : List Char → Prop
  | positive {s : List Char} : Magnitude s → Numeral s
  | negative {s : List Char} : Magnitude s → Numeral ('-' :: s)

/-! ### Strings -/

/-- The letters that may stand behind a backslash, and what they stand for there. -/
def letters : List (Char × Char) :=
  [('"', '"'), ('\\', '\\'), ('/', '/'), ('b', '\x08'), ('f', '\x0c'), ('n', '\n'), ('r', '\r'),
    ('t', '\t')]

/-- The digits beyond nine are letters, small or large. -/
def HexDigit (n : Nat) (c : Char) : Prop := n < 16 ∧ c ∈ [n.digitChar, n.digitChar.toUpper]

instance (n : Nat) (c : Char) : Decidable (HexDigit n c) := inferInstanceAs (Decidable (_ ∧ _))

/-- Sixteen bits in four digits. -/
inductive CodeUnit : Nat → List Char → Prop
  | digits {m n k l : Nat} {a b c d : Char} :
      HexDigit m a → HexDigit n b → HexDigit k c → HexDigit l d →
      CodeUnit (((m * 16 + n) * 16 + k) * 16 + l) [a, b, c, d]

/-- How a character may stand in a string. Beyond sixteen bits, it takes two code units. -/
inductive CharSpelling (c : Char) : List Char → Prop
  | plain : 32 ≤ c.toNat → c ≠ '"' → c ≠ '\\' → CharSpelling c [c]
  | letter {l : Char} : (l, c) ∈ letters → CharSpelling c ['\\', l]
  | code {s : List Char} : CodeUnit c.toNat s → CharSpelling c ('\\' :: 'u' :: s)
  | pair {high low : Nat} {s t : List Char} :
      high < 1024 → low < 1024 → c.toNat = 0x10000 + high * 1024 + low →
      CodeUnit (0xD800 + high) s → CodeUnit (0xDC00 + low) t →
      CharSpelling c ('\\' :: 'u' :: (s ++ '\\' :: 'u' :: t))

inductive Spelling : (text s : List Char) → Prop
  | nil : Spelling [] []
  | cons {c : Char} {text s t : List Char} :
      CharSpelling c s → Spelling text t → Spelling (c :: text) (s ++ t)

/-- A text between quotation marks. -/
inductive Quoted : String → List Char → Prop
  | marks {text : String} {s : List Char} : Spelling text.toList s → Quoted text ('"' :: (s ++ ['"']))

/-- What may stand between quotation marks, whether it stands for a text or not. -/
inductive Inside : List Char → Prop
  | nil : Inside []
  | plain {c : Char} {s : List Char} :
      32 ≤ c.toNat → c ≠ '"' → c ≠ '\\' → Inside s → Inside (c :: s)
  | letter {l c : Char} {s : List Char} : (l, c) ∈ letters → Inside s → Inside ('\\' :: l :: s)
  | code {n : Nat} {s t : List Char} : CodeUnit n s → Inside t → Inside ('\\' :: 'u' :: (s ++ t))

/-! ### Values -/

def Frame.marks : Frame → Char × Char
  | .list => ('[', ']')
  | .object => ('\x7b', '\x7d')

/-- A value, what a bracket holds between two commas, and all that it holds. -/
inductive Part where
  | value
  | item (frame : Frame)
  | items (frame : Frame)

inductive Derives : Part → List Char → Prop
  | null : Derives .value ['n', 'u', 'l', 'l']
  | true : Derives .value ['t', 'r', 'u', 'e']
  | false : Derives .value ['f', 'a', 'l', 's', 'e']
  | number {s : List Char} : Numeral s → Derives .value s
  | string {s : List Char} : Inside s → Derives .value ('"' :: (s ++ ['"']))
  | empty {f : Frame} {gap : List Char} :
      Gap gap → Derives .value (f.marks.1 :: (gap ++ [f.marks.2]))
  | bracket {f : Frame} {s : List Char} :
      Derives (.items f) s → Derives .value (f.marks.1 :: (s ++ [f.marks.2]))
  | element {before s after : List Char} :
      Gap before → Derives .value s → Gap after → Derives (.item .list) (before ++ (s ++ after))
  | member {before name between gap s after : List Char} :
      Gap before → Inside name → Gap between → Gap gap → Derives .value s → Gap after →
      Derives (.item .object)
        (before ++ '"' :: (name ++ '"' :: (between ++ ':' :: (gap ++ (s ++ after)))))
  | last {f : Frame} {s : List Char} : Derives (.item f) s → Derives (.items f) s
  | more {f : Frame} {s t : List Char} :
      Derives (.item f) s → Derives (.items f) t → Derives (.items f) (s ++ ',' :: t)

end SigningProxy.Json
