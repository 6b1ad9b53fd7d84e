import CListing.Token.Spacing

/-!
# Layout commands

Whoever reads the source says what to do with the listing; nothing that the listing does has an
influence on the reading. So a run of the reader is a script of commands, and the listing is what
the script makes of an empty one.
-/

namespace CListing

/-- One step in the making of a listing. -/
inductive Command
  /-- Add a lexeme to the pending line. -/
  | append (lexeme : List Char) (spacing : Spacing)
  /-- Write lines one level deeper from now on. -/
  | indent
  /-- Write lines one level less deep from now on. -/
  | unindent
  /-- Write the pending line; if forced, on a new page, unless the page is still empty. -/
  | endLine (forced : Bool)
  /-- Write the pending line and an empty line. -/
  | skipLine
  /-- Begin a page now. -/
  | newPage
  /-- Begin a page before the next line. -/
  | endPage
  /-- Write the pending line, then a line of a directive, at the margin. -/
  | directive (text : List Char)
  /-- Write a report at the margin, before the pending line. -/
  | report (text : List Char)
  /-- Write a line at the current depth, or at the margin. -/
  | write (text : List Char) (indented : Bool)
deriving DecidableEq, Repr

end CListing
