/-!
# Cuts

A scanner cuts the text in two: the extent that it takes and the rest that it leaves. A cut that
had to end at the end of the text, although its closing mark was still missing, is open.
-/

namespace CListing

/-- A text in two parts. -/
structure Cut where
  extent : List Char
  rest : List Char
  /-- The extent ends where it should, and not for want of text. -/
  closed : Bool := true
deriving DecidableEq, Repr

namespace Cut

/-- Puts one more character in front of the extent. -/
def push (c : Char) (cut : Cut) : Cut :=
  { cut with extent := c :: cut.extent }

/-- The text that was cut. -/
def text (cut : Cut) : List Char :=
  cut.extent ++ cut.rest

@[simp]
theorem text_push (c : Char) (cut : Cut) : (cut.push c).text = c :: cut.text :=
  rfl

@[simp]
theorem rest_push (c : Char) (cut : Cut) : (cut.push c).rest = cut.rest :=
  rfl

@[simp]
theorem closed_push (c : Char) (cut : Cut) : (cut.push c).closed = cut.closed :=
  rfl

@[simp]
theorem extent_push (c : Char) (cut : Cut) : (cut.push c).extent = c :: cut.extent :=
  rfl

/-- The longest beginning of the text whose characters all satisfy the condition. -/
def span (p : Char → Bool) (text : List Char) : Cut :=
  { extent := text.takeWhile p, rest := text.dropWhile p }

@[simp]
theorem text_span (p : Char → Bool) (chars : List Char) : (span p chars).text = chars :=
  List.takeWhile_append_dropWhile

end Cut

end CListing
