import CListing.Formatter.Statement

/-!
# Files

A file is a sequence of declarations and functions. Each function begins a page: its header is
still pending when its body is reached, and is then forced onto a new page. What comes after a
function begins a page too.
-/

namespace CListing.Formatter

variable {σ : Type} [TokenSource σ]

/-- Reads the body of a function whose header was read, with declarations of its parameters before
it if there are any. -/
def functionBody (formatter : Formatter σ) : Formatter σ :=
  let counted := { formatter with functions := formatter.functions + 1 }
  let parameters := (counted.perform (.endLine true)).indent.declarations.unindent
  parameters.compoundStatement.endLine.perform .endPage

/-- Reads a declaration or a function. -/
def fileItem (formatter : Formatter σ) : Formatter σ :=
  match formatter.externalDeclaration with
  | (.header, read) => read.functionBody
  | (.declaration, read) => read

/-- Reads a file from before its first token to its end. -/
def file (formatter : Formatter σ) : Formatter σ :=
  let first := formatter.advance
  (repeatWhile (·.kind ≠ .endOfFile) fileItem first.budget first).endLine

end CListing.Formatter
