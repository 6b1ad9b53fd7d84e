import CListing.Scan.Cut
import CListing.Unicode.Letter
import CListing.Unicode.Number

/-!
# Words and numbers

A word is a run of letters, numbers and underscores. A number is a run of letters, numbers and
points, in which a sign may also stand directly after an exponent mark; hexadecimal numbers have
exponent marks of their own, because `e` is one of their digits. Whether the run denotes a number
of C is of no concern.
-/

namespace CListing

open Unicode

/-- A letter or a number of any script. -/
def isAlphanumeric (c : Char) : Bool :=
  isLetter c || isNumber c

/-- A character of an identifier or keyword. -/
def isWordChar (c : Char) : Bool :=
  isAlphanumeric c || c = '_'

/-- A character of a number, apart from the sign of an exponent. -/
def isNumberChar (c : Char) : Bool :=
  isAlphanumeric c || c = '.'

/-- The letters that announce an exponent in a number that begins so. -/
def exponentMarks (lexeme : List Char) : List Char :=
  match lexeme with
  | '0' :: 'x' :: _ | '0' :: 'X' :: _ => ['p', 'P']
  | _ => ['e', 'E']

/-- The number so far ends in an exponent mark, so that a sign may follow. There is no answer
before the first character. -/
def awaitsSign? (lexeme : List Char) : Option Bool :=
  lexeme.getLast?.map fun last => (exponentMarks lexeme).contains last

/-- The character goes on with the number read so far. -/
def extendsNumber (lexeme : List Char) (c : Char) : Bool :=
  isNumberChar c || ((c = '+' || c = '-') && awaitsSign? lexeme == some true)

/-- The longest number that begins with `lexeme` and goes on with the text. -/
def numberFrom (lexeme : List Char) : List Char → Cut
  | [] => { extent := lexeme, rest := [] }
  | c :: rest =>
    if extendsNumber lexeme c then numberFrom (lexeme ++ [c]) rest
    else { extent := lexeme, rest := c :: rest }

/-- The number at the head of the text. -/
def numberCut (text : List Char) : Cut :=
  numberFrom [] text

/-- The text begins a number: with a digit, or with a point before a digit. -/
def startsNumber : List Char → Bool
  | '.' :: c :: _ => isDigit c
  | c :: _ => isDigit c
  | [] => false

theorem awaitsSign?_eq_none_iff (lexeme : List Char) :
    awaitsSign? lexeme = none ↔ lexeme = [] := by
  simp [awaitsSign?]

@[simp]
theorem text_numberFrom (lexeme text : List Char) :
    (numberFrom lexeme text).text = lexeme ++ text := by
  induction text generalizing lexeme with
  | nil => simp [numberFrom, Cut.text]
  | cons c rest ih =>
    by_cases goesOn : extendsNumber lexeme c = true
    · simp [numberFrom, goesOn, ih]
    · simp [numberFrom, goesOn, Cut.text]

theorem text_numberCut (text : List Char) : (numberCut text).text = text := by
  simp [numberCut]

end CListing
