import CListing.Layout
import CListing.Unicode.Number

/-!
# Page headings

A heading is a form feed, the name padded to its field, and the page number after the word `PAGE`.
The recognizer accepts a line that begins with a form feed and ends in `PAGE`, a blank and decimal
digits; a carriage return and a line feed may follow. What stands between is free, apart from line
feeds.
-/

namespace CListing

open Unicode

/-- So many blanks; none for a negative number. -/
def spaces (count : Int) : List Char :=
  List.replicate count.toNat ' '

namespace Heading

/-- The name, filled up with blanks to the width of its field. -/
def paddedName (name : List Char) (width : Int) : List Char :=
  name ++ spaces (width - name.length)

/-- The heading of a page. -/
def text (name : List Char) (width : Int) (number : Nat) : List Char :=
  '\x0c' :: paddedName name width ++ "PAGE ".toList ++ (toString number).toList

/-- The list without its first element if that is the given character. -/
def dropHead (c : Char) : List Char → List Char
  | [] => []
  | d :: rest => if d = c then rest else d :: rest

/-- The line without its line feed and the carriage return before it, in reverse. -/
def reversedBody (line : List Char) : List Char :=
  dropHead '\r' (dropHead '\n' line.reverse)

/-- The line is a heading of some page of some listing. -/
def matches? (line : List Char) : Bool :=
  let body := reversedBody line
  let digits := body.takeWhile isDecimal
  match body.dropWhile isDecimal with
  | ' ' :: 'E' :: 'G' :: 'A' :: 'P' :: before =>
    !digits.isEmpty && before.getLast? == some '\x0c' && !before.contains '\n'
  | _ => false

end Heading

end CListing
