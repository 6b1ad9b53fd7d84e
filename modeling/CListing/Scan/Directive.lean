import CListing.Scan.Cut
import CListing.Text.Pieces
import CListing.Text.Trim

/-!
# Preprocessor directives

A directive goes from its number sign to the end of the first line that does not end in a
backslash, blanks at the end of a line not counted. The line feed after it is left. If a text ends
in a backslash and a line feed, the directive ends in an empty line.
-/

namespace CListing

open Unicode

/-- The directive at the head of the text; `continued` says whether the last character of the
current line so far that is not blank is a backslash. -/
def directiveFrom (continued : Bool) : List Char → Cut
  | [] => { extent := [], rest := [] }
  | c :: rest =>
    if c = '\n' then
      if continued then (directiveFrom false rest).push c else { extent := [], rest := c :: rest }
    else (directiveFrom (if isBlank c then continued else c = '\\') rest).push c

/-- The directive at the head of the text. -/
def directiveCut (text : List Char) : Cut :=
  directiveFrom false text

/-- The lines of a directive, without the blanks at their ends. -/
def directiveLines (extent : List Char) : List (List Char) :=
  (Text.pieces '\n' extent).map Text.trimEnd

@[simp]
theorem text_directiveFrom (continued : Bool) (text : List Char) :
    (directiveFrom continued text).text = text := by
  induction text generalizing continued with
  | nil => rfl
  | cons c rest ih =>
    by_cases feed : c = '\n'
    · cases continued <;> simp [directiveFrom, feed, Cut.text]
      simpa [Cut.text] using ih false
    · simp [directiveFrom, feed, ih]

theorem text_directiveCut (text : List Char) : (directiveCut text).text = text := by
  simp [directiveCut]

end CListing
