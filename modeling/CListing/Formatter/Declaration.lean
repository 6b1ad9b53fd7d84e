import CListing.Formatter.Expression

/-!
# Declarations

A declaration goes up to its semicolon; the bodies of structures, unions and enumerations have
semicolons of their own, which end lines. At file level a closing parenthesis may turn out to be the
end of a function header, by the token that follows. Inside a block a closing brace that is not the
end of a body ends the declaration.
-/

namespace CListing.Formatter

variable {σ : Type} [TokenSource σ]

/-- Consumes an opening brace, which stands on a line of its own, and goes one level deeper. -/
def openBrace (formatter : Formatter σ) : Formatter σ :=
  let inside := formatter.endLine.advance.endLine.indent
  { inside with bodiesOpened := inside.bodiesOpened + 1 }

/-- Goes one level up and consumes a closing brace, which begins a line. -/
def closeBrace (formatter : Formatter σ) : Formatter σ :=
  let after := formatter.endLine.unindent.advance
  { after with bodiesClosed := after.bodiesClosed + 1 }

/-- Ends a declaration with its semicolon. -/
def endDeclaration (formatter : Formatter σ) : Formatter σ :=
  (formatter.expect .semicolon).endLine

/-- Reads on in a declaration inside a function, with so many braces open. -/
def declarationFrom (braces : Nat) : Nat → Formatter σ → Formatter σ
  | 0, formatter => formatter.giveUp
  | budget + 1, formatter =>
    if (braces = 0 && formatter.kind = .semicolon) || formatter.kind = .endOfFile then formatter
    else
      let formatter := formatter.markDeclaration
      match formatter.kind, braces with
      | .leftBrace, _ => declarationFrom (braces + 1) budget formatter.openBrace
      | .rightBrace, 0 => formatter
      | .rightBrace, outer + 1 => declarationFrom outer budget formatter.closeBrace
      | .assignment, _ => declarationFrom braces budget (formatter.expression .semicolon)
      | .semicolon, _ => declarationFrom braces budget formatter.advance.endLine
      | _, _ => declarationFrom braces budget formatter.advance

/-- Reads a declaration inside a function. -/
def declaration (formatter : Formatter σ) : Formatter σ :=
  (declarationFrom 0 formatter.budget formatter).endDeclaration

/-- Reads declarations as long as the current token begins one. -/
def declarations (formatter : Formatter σ) : Formatter σ :=
  repeatWhile (·.kind.startsDeclaration) declaration formatter.budget formatter

/-- How the reading of a declaration at file level ends. -/
inductive FileLevel
  /-- The header of a function was read, up to its parameter list. -/
  | header
  /-- A declaration was read up to its semicolon or to the end of the source. -/
  | declaration
deriving DecidableEq, Repr

/-- Reads on in a declaration at file level, with so many braces open. Closing braces too many make
the number negative; then too a semicolon ends the declaration. -/
def externalFrom (braces : Int) : Nat → Formatter σ → FileLevel × Formatter σ
  | 0, formatter => (.declaration, formatter.giveUp)
  | budget + 1, formatter =>
    if (braces ≤ 0 && formatter.kind = .semicolon) || formatter.kind = .endOfFile then
      (.declaration, formatter)
    else
      let formatter := formatter.markDeclaration
      match formatter.kind with
      | .leftBrace => externalFrom (braces + 1) budget formatter.openBrace
      | .rightBrace => externalFrom (braces - 1) budget formatter.closeBrace
      | .rightParen =>
        let next := formatter.advance
        if braces = 0 && !next.kind.goesOnWithDeclaration then (.header, next)
        else externalFrom braces budget next
      | .assignment => externalFrom braces budget (formatter.expression .semicolon)
      | .semicolon => externalFrom braces budget formatter.advance.endLine
      | _ => externalFrom braces budget formatter.advance

/-- Reads a declaration or a function header at file level. -/
def externalDeclaration (formatter : Formatter σ) : FileLevel × Formatter σ :=
  match externalFrom 0 formatter.budget formatter with
  | (.header, read) => (.header, read)
  | (.declaration, read) => (.declaration, read.endDeclaration)

end CListing.Formatter
