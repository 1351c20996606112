import SigningProxy.Text.Cut

/-!
# White space

A character is blank when it has the White_Space property, which is wider than ASCII: it holds the
no-break space and the typographic spaces too. Addresses are trimmed of blanks, and a text of blanks
alone counts as empty.
-/

namespace SigningProxy.Text

/-- The characters of the White_Space property. -/
def isBlank (c : Char) : Bool :=
  let n := c.toNat
  (9 ≤ n && n ≤ 13) || n == 0x20 || n == 0x85 || n == 0xA0 || n == 0x1680 ||
    (0x2000 ≤ n && n ≤ 0x200A) || n == 0x2028 || n == 0x2029 || n == 0x202F || n == 0x205F ||
    n == 0x3000

/-- A text without the blanks at its two ends. -/
def trim (s : List Char) : List Char :=
  strip isBlank s

/-- Nothing but blanks. -/
def blank (s : String) : Bool :=
  s.toList.all isBlank

/-- Every blank of the core library is one of ours. -/
theorem isBlank_of_isWhitespace {c : Char} (h : c.isWhitespace = true) : isBlank c = true := by
  simp only [Char.isWhitespace, Bool.or_eq_true, decide_eq_true_eq] at h
  rcases h with ((h | h) | h) | h <;> subst h <;> decide

end SigningProxy.Text
