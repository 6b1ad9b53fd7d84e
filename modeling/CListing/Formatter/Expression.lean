import CListing.Formatter.Basic

/-!
# Expressions

An expression is whatever stands before its terminator. Inside parentheses the terminator is the
closing parenthesis, and those of the outer levels mean nothing. Braces inside an expression, as in
an initializer, are counted; a closing brace too many ends the expression on all levels, since the
block around it closes there. A level that does not end in its parenthesis is reported, and the
levels around it end too.
-/

namespace CListing.Formatter

variable {σ : Type}

/-- The parenthesis of a function call joins the name before it. -/
def markCall (formatter : Formatter σ) (previous : Category) : Formatter σ :=
  if previous.isName then formatter.adjust .left else formatter

variable [TokenSource σ]

/-- Reads on in an expression after a token of the category `previous`, with so many braces open on
the current level of parentheses. -/
def expressionFrom (terminator previous : Category) (braces : Nat) :
    Nat → Formatter σ → Formatter σ
  | 0, formatter => formatter.giveUp
  | budget + 1, formatter =>
    if formatter.kind = terminator || formatter.kind = .endOfFile then formatter
    else
      let formatter := formatter.markExpression previous
      match formatter.kind, braces with
      | .leftParen, _ =>
        let called := (formatter.markCall previous).advance
        let inner := expressionFrom .rightParen .foreign 0 budget called
        if inner.kind = .rightParen then
          expressionFrom terminator .rightParen braces budget inner.advance
        else inner.reportMissing .rightParen
      | .leftBrace, _ =>
        expressionFrom terminator .leftBrace (braces + 1) budget formatter.advance
      | .rightBrace, 0 => formatter
      | .rightBrace, outer + 1 =>
        expressionFrom terminator .rightBrace outer budget formatter.advance
      | kind, _ => expressionFrom terminator kind braces budget formatter.advance

/-- Reads an expression up to its terminator, which is left. -/
def expression (formatter : Formatter σ) (terminator : Category) : Formatter σ :=
  expressionFrom terminator .foreign 0 formatter.budget formatter

/-- Reads an expression in parentheses. Without an opening parenthesis nothing is read. -/
def parenthesized (formatter : Formatter σ) : Formatter σ :=
  if formatter.kind = .leftParen then
    (formatter.advance.expression .rightParen).expect .rightParen
  else formatter.reportMissing .leftParen

end CListing.Formatter
