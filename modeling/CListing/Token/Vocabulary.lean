import CListing.Token.Basic

/-!
# Keywords, operators and punctuation

Two tables: the keywords with their categories, and the operators with their categories and the
spacing that does not depend on the context. The operator at the head of a text is the longest one
that the text begins with.
-/

namespace CListing

/-- The keywords. -/
def keywords : List (String × Category) :=
  [("auto", .storageSpecifier), ("extern", .storageSpecifier), ("register", .storageSpecifier),
   ("static", .storageSpecifier), ("typedef", .storageSpecifier),
   ("char", .typeSpecifier), ("const", .typeSpecifier), ("double", .typeSpecifier),
   ("float", .typeSpecifier), ("int", .typeSpecifier), ("long", .typeSpecifier),
   ("short", .typeSpecifier), ("signed", .typeSpecifier), ("unsigned", .typeSpecifier),
   ("void", .typeSpecifier), ("volatile", .typeSpecifier),
   ("break", .kwBreak), ("case", .kwCase), ("continue", .kwContinue), ("default", .kwDefault),
   ("do", .kwDo), ("else", .kwElse), ("enum", .kwEnum), ("for", .kwFor), ("goto", .kwGoto),
   ("if", .kwIf), ("return", .kwReturn), ("sizeof", .kwSizeof), ("struct", .kwStruct),
   ("switch", .kwSwitch), ("union", .kwUnion), ("while", .kwWhile)]

/-- A word is a keyword or an identifier. -/
def wordCategory (word : List Char) : Category :=
  match keywords.find? fun entry => entry.1.toList == word with
  | some entry => entry.2
  | none => .identifier

/-- An operator or punctuation mark. -/
structure Operator where
  spelling : List Char
  category : Category
  /-- The spacing in any context. -/
  spacing : Spacing
deriving DecidableEq, Repr

namespace Operator

/-- The operators, longer spellings before shorter ones. Two points are an operator only because
three are one: a text that begins with two points and no third one is cut after the second. -/
def table : List Operator :=
  [⟨"...".toList, .ellipsis, .free⟩,
   ⟨"<<=".toList, .assignment, .free⟩,
   ⟨">>=".toList, .assignment, .free⟩,
   ⟨"++".toList, .increment, .free⟩,
   ⟨"--".toList, .increment, .free⟩,
   ⟨"->".toList, .member, .both⟩,
   ⟨"..".toList, .member, .free⟩,
   ⟨"+=".toList, .assignment, .free⟩,
   ⟨"-=".toList, .assignment, .free⟩,
   ⟨"*=".toList, .assignment, .free⟩,
   ⟨"/=".toList, .assignment, .free⟩,
   ⟨"%=".toList, .assignment, .free⟩,
   ⟨"&=".toList, .assignment, .free⟩,
   ⟨"|=".toList, .assignment, .free⟩,
   ⟨"^=".toList, .assignment, .free⟩,
   ⟨"&&".toList, .binary, .free⟩,
   ⟨"||".toList, .binary, .free⟩,
   ⟨"<<".toList, .binary, .free⟩,
   ⟨">>".toList, .binary, .free⟩,
   ⟨"<=".toList, .binary, .free⟩,
   ⟨">=".toList, .binary, .free⟩,
   ⟨"==".toList, .binary, .free⟩,
   ⟨"!=".toList, .binary, .free⟩,
   ⟨"+".toList, .unaryOrBinary, .free⟩,
   ⟨"-".toList, .unaryOrBinary, .free⟩,
   ⟨"*".toList, .unaryOrBinary, .free⟩,
   ⟨"&".toList, .unaryOrBinary, .free⟩,
   ⟨"/".toList, .binary, .free⟩,
   ⟨"%".toList, .binary, .free⟩,
   ⟨"^".toList, .binary, .free⟩,
   ⟨"|".toList, .binary, .free⟩,
   ⟨"<".toList, .binary, .free⟩,
   ⟨">".toList, .binary, .free⟩,
   ⟨"=".toList, .assignment, .free⟩,
   ⟨"!".toList, .unary, .right⟩,
   ⟨"~".toList, .unary, .right⟩,
   ⟨".".toList, .member, .both⟩,
   ⟨"?".toList, .conditional, .free⟩,
   ⟨":".toList, .colon, .free⟩,
   ⟨"(".toList, .leftParen, .right⟩,
   ⟨")".toList, .rightParen, .left⟩,
   ⟨"[".toList, .leftBracket, .both⟩,
   ⟨"]".toList, .rightBracket, .left⟩,
   ⟨"\x7b".toList, .leftBrace, .right⟩,
   ⟨"\x7d".toList, .rightBrace, .left⟩,
   ⟨";".toList, .semicolon, .left⟩,
   ⟨",".toList, .comma, .left⟩]

/-- The longest operator that the text begins with. -/
def longest? (text : List Char) : Option Operator :=
  table.find? fun operator => operator.spelling.isPrefixOf text

/-- The operator found stands at the head of the text. -/
theorem spelling_isPrefix {text : List Char} {operator : Operator}
    (found : longest? text = some operator) : operator.spelling <+: text := by
  have matched := List.find?_some found
  simpa using matched

/-- Every spelling in the table has a character. -/
theorem spelling_ne_nil {operator : Operator} (member : operator ∈ table) :
    operator.spelling ≠ [] := by
  have allNonempty : ∀ entry ∈ table, entry.spelling ≠ [] := by decide
  exact allNonempty operator member

/-- An operator stands in the table before every shorter one, so the first match is the longest. -/
theorem table_pairwise_length :
    table.Pairwise fun first second => second.spelling.length ≤ first.spelling.length := by
  decide

end Operator

end CListing
