import CListing.Scan.Directive
import CListing.Scan.Literal
import CListing.Scan.Number
import CListing.Token.Vocabulary
import CListing.Unicode.Upper

/-!
# The piece at the head of a text

A text that does not begin with a blank begins with a token, a comment or a directive. Which one
it is shows in its first two characters. The main statement says that the extent of the piece and
the rest make up the text, so nothing is lost between pieces.
-/

namespace CListing

open Unicode

/-- A piece of the source and what follows it. -/
structure Scan where
  category : Category
  /-- What counts as the text of the piece. It is the extent, except for comments and directives. -/
  lexeme : List Char
  /-- The characters that the piece takes up. -/
  extent : List Char
  rest : List Char
  /-- The spacing that the spelling fixes; only operators have one. -/
  spacing? : Option Spacing := none
  /-- The lines of a directive. -/
  lines : List (List Char) := []
  /-- The piece ends with its closing mark, if it needs one. -/
  closed : Bool := true
deriving DecidableEq, Repr

namespace Scan

/-- A token whose lexeme is what was cut off. -/
def ofCut (category : Category) (cut : Cut) : Scan where
  category := category
  lexeme := cut.extent
  extent := cut.extent
  rest := cut.rest
  closed := cut.closed

/-- A character or string literal after an optional mark in front of the quote. -/
def literal (mark : List Char) (quote : Char) (rest : List Char) : Scan :=
  let tail := (literalTail quote rest).push quote
  ofCut (if quote = '"' then .string else .constant) { tail with extent := mark ++ tail.extent }

/-- A word in the given category, or a keyword if that is left open. -/
def word (category? : Option Category) (text : List Char) : Scan :=
  let cut := Cut.span isWordChar text
  ofCut (category?.getD (wordCategory cut.extent)) cut

/-- A block comment. Its text does not count. -/
def blockComment (text : List Char) : Scan :=
  { ofCut .comment (commentCut text) with lexeme := [] }

/-- A comment up to the end of the line. -/
def lineComment (text : List Char) : Scan :=
  ofCut .comment (Cut.span (· ≠ '\n') text)

/-- A directive with its lines. -/
def directive (text : List Char) : Scan :=
  let cut := directiveCut text
  let lines := directiveLines cut.extent
  { ofCut .directive cut with lexeme := Text.joined '\n' lines, lines := lines }

/-- An operator, or a single character that belongs to no token of C. -/
def operator (c : Char) (rest : List Char) : Scan :=
  match Operator.longest? (c :: rest) with
  | some found =>
    { ofCut found.category
        { extent := found.spelling, rest := (c :: rest).drop found.spelling.length } with
      spacing? := some found.spacing }
  | none => ofCut .foreign { extent := [c], rest := rest }

/-- The end of the text. -/
def ending : Scan :=
  ofCut .endOfFile { extent := [], rest := [] }

/-- The piece at the head of a text that does not begin with a blank. -/
def ofText : List Char → Scan
  | [] => ending
  | 'L' :: '"' :: rest => literal ['L'] '"' rest
  | 'L' :: '\'' :: rest => literal ['L'] '\'' rest
  | c :: rest =>
    if isUpper c then word (some .upperCaseIdentifier) (c :: rest)
    else if isLetter c || c = '_' then word none (c :: rest)
    else if startsNumber (c :: rest) then ofCut .constant (numberCut (c :: rest))
    else if c = '"' || c = '\'' then literal [] c rest
    else if c = '#' then directive (c :: rest)
    else if c = '/' && rest.head? = some '*' then blockComment (c :: rest)
    else if c = '/' && rest.head? = some '/' then lineComment (c :: rest)
    else operator c rest

/-- What the piece was cut from. -/
def text (scan : Scan) : List Char :=
  scan.extent ++ scan.rest

@[simp]
theorem text_ofCut (category : Category) (cut : Cut) : (ofCut category cut).text = cut.text :=
  rfl

theorem text_literal (mark : List Char) (quote : Char) (rest : List Char) :
    (literal mark quote rest).text = mark ++ quote :: rest := by
  have tail := text_literalTail quote rest
  simp only [Cut.text] at tail
  simp [literal, ofCut, text, tail]

theorem text_word (category? : Option Category) (chars : List Char) :
    (word category? chars).text = chars := by
  simp [word]

theorem text_blockComment (chars : List Char) : (blockComment chars).text = chars :=
  text_commentCut chars

theorem text_lineComment (chars : List Char) : (lineComment chars).text = chars := by
  simp [lineComment]

theorem text_directive (chars : List Char) : (directive chars).text = chars :=
  text_directiveCut chars

theorem text_operator (c : Char) (rest : List Char) : (operator c rest).text = c :: rest := by
  unfold operator
  split
  · rename_i found eq
    have begins := List.prefix_iff_eq_append.1 (Operator.spelling_isPrefix eq)
    exact begins
  · rfl

/-- Extent and rest make up the text. -/
theorem text_ofText (chars : List Char) : (ofText chars).text = chars := by
  unfold ofText
  split
  · rfl
  · exact text_literal _ _ _
  · exact text_literal _ _ _
  · rename_i c rest _ _
    split
    · exact text_word _ _
    split
    · exact text_word _ _
    split
    · exact text_numberCut _
    split
    · exact text_literal _ _ _
    split
    · exact text_directive _
    split
    · exact text_blockComment _
    split
    · exact text_lineComment _
    · exact text_operator _ _

end Scan

end CListing
