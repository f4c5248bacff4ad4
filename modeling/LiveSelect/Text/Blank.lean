/-! # Blank texts

A text is blank when it holds white space only. White space is the set of characters
that have the Unicode property White_Space. -/

namespace LiveSelect.Text

/-- The Unicode property White_Space. -/
def isSpace (c : Char) : Bool :=
  let n := c.toNat
  (0x9 ≤ n && n ≤ 0xD) || n == 0x20 || n == 0x85 || n == 0xA0 || n == 0x1680 ||
    (0x2000 ≤ n && n ≤ 0x200A) || n == 0x2028 || n == 0x2029 || n == 0x202F ||
    n == 0x205F || n == 0x3000

/-- Whether a text holds nothing but white space; the empty text is blank. -/
def isBlank (s : String) : Bool := s.toList.all isSpace

/-- A text that is given and not blank. -/
def nonBlank? (s : Option String) : Option String := s.filter (!isBlank ·)

/-- A text that is given and not empty. -/
def nonEmpty? (s : Option String) : Option String := s.filter (· ≠ "")

/-- The blanks of ASCII are among the characters of White_Space. -/
theorem isSpace_of_isWhitespace {c : Char} (h : c.isWhitespace = true) : isSpace c = true := by
  simp only [Char.isWhitespace, Bool.or_eq_true, decide_eq_true_eq] at h
  rcases h with ((rfl | rfl) | rfl) | rfl <;> decide

theorem isBlank_empty : isBlank "" = true := rfl

end LiveSelect.Text
