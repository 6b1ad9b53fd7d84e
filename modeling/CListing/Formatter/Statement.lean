import CListing.Formatter.Declaration

/-!
# Statements

The statements of C, by the token that begins them. Those that contain statements are defined over
the way to read one, and the reading of a statement ties the knot: a statement inside another one
has fewer tokens before it, so a depth of nesting above the number of remaining tokens is never
reached.
-/

namespace CListing.Formatter

variable {σ : Type}

/-- The current token ends a block. -/
def atBlockEnd (formatter : Formatter σ) : Bool :=
  formatter.kind = .rightBrace || formatter.kind = .endOfFile

/-- The current token begins a label of a `switch`. -/
def atCase (formatter : Formatter σ) : Bool :=
  formatter.kind = .kwCase || formatter.kind = .kwDefault

variable [TokenSource σ]

/-- Ends a statement with its semicolon. -/
def endStatement (formatter : Formatter σ) : Formatter σ :=
  (formatter.expect .semicolon).endLine

/-- An expression and a semicolon. -/
def expressionStatement (formatter : Formatter σ) : Formatter σ :=
  (formatter.expression .semicolon).endStatement

/-- A `break` or `continue`. -/
def jumpStatement (formatter : Formatter σ) : Formatter σ :=
  formatter.advance.endStatement

/-- A `return`, with or without a value. -/
def returnStatement (formatter : Formatter σ) : Formatter σ :=
  let value := formatter.advance
  if value.kind = .semicolon then value.endStatement
  else (value.expression .semicolon).endStatement

/-- A `goto` with its label. -/
def gotoStatement (formatter : Formatter σ) : Formatter σ :=
  let label := formatter.advance
  if label.kind = .upperCaseIdentifier then label.advance.endStatement
  else (label.expect .identifier).endStatement

/-- A label of a `switch`, up to its colon. -/
def caseLabel (formatter : Formatter σ) : Formatter σ :=
  (((formatter.expression .colon).adjust .left).expect .colon).endLine

section Nested

variable (statement : Formatter σ → Formatter σ)

/-- The declarations at the head of a block, with an empty line after them if there are any. -/
def blockDeclarations (formatter : Formatter σ) : Formatter σ :=
  if formatter.kind.startsDeclaration then formatter.declarations.perform .skipLine
  else formatter

/-- Reads statements up to the end of the block. -/
def statementsVia (formatter : Formatter σ) : Formatter σ :=
  repeatWhile (!·.atBlockEnd) statement formatter.budget formatter

/-- Reads a block in braces. -/
def compoundVia (formatter : Formatter σ) : Formatter σ :=
  let inside := (formatter.expect .leftBrace).endLine.indent.blockDeclarations
  ((statementsVia statement inside).endLine.unindent.expect .rightBrace).endLine

/-- Reads the statement that another one controls. Unless it is a block, it stands one level
deeper. -/
def substatementVia (formatter : Formatter σ) : Formatter σ :=
  if formatter.kind = .leftBrace then compoundVia statement formatter
  else (statement formatter.indent).unindent

/-- A keyword, a condition in parentheses, and a statement. -/
def controlledVia (formatter : Formatter σ) : Formatter σ :=
  substatementVia statement formatter.advance.parenthesized.endLine

/-- Reads an `if` with its `else`. An `if` after `else` stands on the same line and goes on at the
same depth. -/
def ifVia : Nat → Formatter σ → Formatter σ
  | 0, formatter => formatter.giveUp
  | budget + 1, formatter =>
    let first := controlledVia statement formatter
    if first.kind = .kwElse then
      let second := first.advance
      if second.kind = .kwIf then ifVia budget second
      else substatementVia statement second.endLine
    else first

/-- Reads a `do` with its condition. -/
def doVia (formatter : Formatter σ) : Formatter σ :=
  let body := substatementVia statement formatter.advance.endLine
  (body.expect .kwWhile).parenthesized.endStatement

/-- Reads the statements of a `switch` after a label. -/
def caseBodyVia (formatter : Formatter σ) : Formatter σ :=
  let body := formatter.indent
  (repeatWhile (fun f => !f.atCase && !f.atBlockEnd) statement body.budget body).endLine.unindent

/-- Reads a label of a `switch`, if there is one, and the statements after it. -/
def switchSectionVia (formatter : Formatter σ) : Formatter σ :=
  caseBodyVia statement (if formatter.atCase then formatter.caseLabel else formatter)

/-- Reads a `switch`. Its labels stand one level deeper and their statements two. -/
def switchVia (formatter : Formatter σ) : Formatter σ :=
  let inside := (formatter.advance.parenthesized.endLine.expect .leftBrace).endLine.indent
  let body :=
    repeatWhile (!·.atBlockEnd) (switchSectionVia statement) inside.budget inside
  (body.unindent.expect .rightBrace).endLine

/-- Reads a statement without a label, by the token that begins it. -/
def unlabelledVia (formatter : Formatter σ) : Formatter σ :=
  match formatter.kind with
  | .leftBrace => compoundVia statement formatter
  | .kwSwitch => switchVia statement formatter
  | .kwBreak | .kwContinue => formatter.jumpStatement
  | .kwReturn => formatter.returnStatement
  | .kwGoto => formatter.gotoStatement
  | .kwIf => ifVia statement formatter.budget formatter
  | .kwWhile | .kwFor => controlledVia statement formatter
  | .kwDo => doVia statement formatter
  | _ => formatter.expressionStatement

/-- Reads a statement with its label, if it has one. A name is a label if a colon follows it; to
see that, the token after the name has to be fetched, and it is put back if it is no colon. -/
def statementVia (formatter : Formatter σ) : Formatter σ :=
  let name := formatter.token
  if name.category.isName then
    let next := formatter.advance
    if next.kind = .colon then
      let labelled := (next.adjust .left).advance
      if labelled.kind = .rightBrace then labelled.endLine
      else unlabelledVia statement labelled
    else unlabelledVia statement (next.putBack.lookAt name)
  else unlabelledVia statement formatter

end Nested

/-- Reads a statement in which statements are nested at most `depth` deep. -/
def statementWithin : Nat → Formatter σ → Formatter σ
  | 0, formatter => formatter.giveUp
  | depth + 1, formatter => statementVia (statementWithin depth) formatter

/-- Reads a statement. -/
def statement (formatter : Formatter σ) : Formatter σ :=
  statementWithin formatter.budget formatter

/-- Reads a block in braces. -/
def compoundStatement (formatter : Formatter σ) : Formatter σ :=
  compoundVia statement formatter

/-- Reads the statement that another one controls. -/
def substatement (formatter : Formatter σ) : Formatter σ :=
  substatementVia statement formatter

/-- Reads an `if` with its `else`. -/
def ifStatement (formatter : Formatter σ) : Formatter σ :=
  ifVia statement formatter.budget formatter

/-- Reads a `while` or `for`. -/
def loopStatement (formatter : Formatter σ) : Formatter σ :=
  controlledVia statement formatter

/-- Reads a `do` with its condition. -/
def doStatement (formatter : Formatter σ) : Formatter σ :=
  doVia statement formatter

/-- Reads a `switch`. -/
def switchStatement (formatter : Formatter σ) : Formatter σ :=
  switchVia statement formatter

end CListing.Formatter
