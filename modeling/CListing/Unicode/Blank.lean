import CListing.Unicode.Span

/-!
# Blanks

The characters that separate tokens and that are trimmed from the ends of a line: the white space
of Unicode together with the four information separators of ASCII.
-/

namespace CListing.Unicode

/-- The code points of the blanks. -/
def blankSpans : List (Nat × Nat) :=
  [(0x9, 0xD), (0x1C, 0x20), (0x85, 0x85), (0xA0, 0xA0), (0x1680, 0x1680), (0x2000, 0x200A),
   (0x2028, 0x2029), (0x202F, 0x202F), (0x205F, 0x205F), (0x3000, 0x3000)]

/-- The character is a blank. -/
def isBlank (c : Char) : Bool :=
  covers blankSpans c.toNat

/-- Every white space character of ASCII is a blank. -/
theorem isBlank_of_isWhitespace {c : Char} (white : c.isWhitespace = true) :
    isBlank c = true := by
  simp only [Char.isWhitespace, Bool.or_eq_true, decide_eq_true_eq] at white
  rcases white with ((rfl | rfl) | rfl) | rfl <;> decide

end CListing.Unicode
