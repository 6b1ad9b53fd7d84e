import CListing.Token.Category
import CListing.Token.Spacing

/-!
# Tokens and their place in a construct

Besides the spacing that its spelling fixes, a token gets marks from its place: in a declaration
an asterisk is a pointer and a parenthesis follows a name, in an expression an operator is unary or
binary by what stands before it.
-/

namespace CListing

/-- A token of the source. -/
structure Token where
  category : Category
  lexeme : List Char
  /-- The source line of its first character, counted from one. -/
  line : Nat
deriving DecidableEq, Repr, Inhabited

namespace Token

/-- The place before the first token. -/
def start : Token :=
  { category := .noToken, lexeme := [], line := 0 }

/-- The end of a source whose last line is the given one. -/
def ending (line : Nat) : Token :=
  { category := .endOfFile, lexeme := [], line := line }

end Token

namespace Category

/-- The mark of a token in a declaration: a pointer joins its name, and the parenthesis of a
parameter list joins the name before it. -/
def declarationSpacing : Category → Spacing
  | unaryOrBinary => .right
  | leftParen => .left
  | _ => .free

/-- The mark of a token in an expression, by the category of the token before it: a unary operator
joins its operand. -/
def expressionSpacing (category previous : Category) : Spacing :=
  match category with
  | increment => if previous.endsOperand then .left else .right
  | unaryOrBinary => if previous.endsOperand then .free else .right
  | _ => .free

end Category

end CListing
