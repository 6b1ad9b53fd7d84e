import CListing.Reader.Cursor

/-!
# Formatters

A formatter walks along the tokens of a source by the grammar of C and writes a script for the
listing. It decides by the category of the token it looks at. That token is the current one of its
cursor, except while a label was looked for in vain: then the cursor is one token ahead and will
return the next token once more.

Its loops carry a budget, so that every function is total. The budget exceeds the number of tokens
that can still be consumed, and each round of a loop but the last consumes one. So a loop that
spends its budget goes on beyond all tokens before the end: the source has no end, and the formatter
gives up.
-/

namespace CListing

/-- A place in the walk along a source. -/
structure Formatter (σ : Type) where
  cursor : Cursor σ
  /-- The token that the formatter looks at. -/
  token : Token := Token.start
  /-- The commands so far. -/
  script : Array Command := #[]
  /-- The notes so far. -/
  notes : Array Note := #[]
  /-- The tokens reported missing so far. -/
  missing : Nat := 0
  /-- The functions met so far. -/
  functions : Nat := 0
  /-- The bodies in braces that were begun inside declarations so far. -/
  bodiesOpened : Nat := 0
  /-- The bodies in braces that were ended inside declarations so far. -/
  bodiesClosed : Nat := 0
  /-- The first attempt to put back a second token, if there was one. -/
  misuse? : Option Cursor.Occupied := none
  /-- A loop was given up, because it would never end. -/
  endless : Bool := false
deriving DecidableEq, Repr

namespace Formatter

variable {σ : Type}

/-- The formatter before the first token of a source, after the given notes. -/
def ofTokens (source : σ) (traced : Bool) (notes : List Note) : Formatter σ where
  cursor := { source := source, traced := traced }
  notes := notes.toArray

/-- The category of the token. -/
def kind (formatter : Formatter σ) : Category :=
  formatter.token.category

/-- Adds a command to the script. -/
def perform (formatter : Formatter σ) (command : Command) : Formatter σ :=
  { formatter with script := formatter.script.push command }

/-- Ends the pending line. -/
def endLine (formatter : Formatter σ) : Formatter σ :=
  formatter.perform (.endLine false)

/-- Goes one level deeper. -/
def indent (formatter : Formatter σ) : Formatter σ :=
  formatter.perform .indent

/-- Goes one level up. -/
def unindent (formatter : Formatter σ) : Formatter σ :=
  formatter.perform .unindent

/-- Adds marks to the spacing of the current token. -/
def adjust (formatter : Formatter σ) (spacing : Spacing) : Formatter σ :=
  { formatter with cursor := formatter.cursor.adjust spacing }

/-- Marks the current token as one of a declaration. -/
def markDeclaration (formatter : Formatter σ) : Formatter σ :=
  { formatter with cursor := formatter.cursor.markDeclaration formatter.kind }

/-- Marks the current token as one of an expression, after a token of the category `previous`. -/
def markExpression (formatter : Formatter σ) (previous : Category) : Formatter σ :=
  { formatter with cursor := formatter.cursor.markExpression formatter.kind previous }

/-- Puts the current token of the cursor back. -/
def putBack (formatter : Formatter σ) : Formatter σ :=
  match formatter.cursor.putBack with
  | .ok cursor => { formatter with cursor := cursor }
  | .error error => { formatter with misuse? := formatter.misuse?.or (some error) }

/-- Looks at the given token again. -/
def lookAt (formatter : Formatter σ) (token : Token) : Formatter σ :=
  { formatter with token := token }

/-- Reports that a token is missing, in the listing and in the log. -/
def reportMissing (formatter : Formatter σ) (required : Category) : Formatter σ :=
  { formatter with
    missing := formatter.missing + 1
    script := formatter.script.push (.report ("MISSING " ++ required.name).toList)
    notes := formatter.notes.push (.missing required formatter.token) }

/-- Gives up a loop that has spent its budget. -/
def giveUp (formatter : Formatter σ) : Formatter σ :=
  { formatter with endless := true }

/-- Repeats a step while the condition holds, in at most `budget` rounds. -/
def repeatWhile (condition : Formatter σ → Bool) (step : Formatter σ → Formatter σ) :
    Nat → Formatter σ → Formatter σ
  | 0, formatter => formatter.giveUp
  | budget + 1, formatter =>
    if condition formatter then repeatWhile condition step budget (step formatter) else formatter

variable [TokenSource σ]

/-- Goes on to the next token. -/
def advance (formatter : Formatter σ) : Formatter σ :=
  let step := formatter.cursor.next
  { formatter with
    cursor := step.cursor
    token := step.cursor.current
    script := formatter.script ++ step.script
    notes := formatter.notes ++ step.notes }

/-- Consumes a token of the required category, or reports it missing and stays where it is. -/
def expect (formatter : Formatter σ) (required : Category) : Formatter σ :=
  if formatter.kind = required then formatter.advance else formatter.reportMissing required

/-- The tokens that can still be consumed: the one that is looked at, the one put back, and those
ahead. The end of the source does not count. -/
def remaining (formatter : Formatter σ) : Nat :=
  (if formatter.kind = .endOfFile then 0 else 1) +
    (match formatter.cursor.lookahead? with
      | some token => if token.category = .endOfFile then 0 else 1
      | none => 0) +
    TokenSource.size formatter.cursor.source

/-- The rounds that a loop may take: one for each token that remains, and the last, which finds
that the loop is over. -/
def budget (formatter : Formatter σ) : Nat :=
  formatter.remaining + 1

/-- Along a feed, every advance before the end uses up one of the remaining tokens. -/
theorem remaining_advance (formatter : Formatter Feed)
    (notEnd : formatter.kind ≠ .endOfFile) : formatter.advance.remaining < formatter.remaining := by
  obtain ⟨cursor, token⟩ := formatter
  obtain ⟨source, current, spacing, lookahead, traced⟩ := cursor
  simp only [kind] at notEnd
  cases lookahead with
  | some put => simp [advance, Cursor.next, remaining, kind, notEnd]
  | none =>
    by_cases last : source.fetch.1.token.category = .endOfFile
    · have shorter := source.size_fetch_le
      simp [advance, Cursor.next, TokenSource.fetch, TokenSource.size, remaining, kind, notEnd,
        last]
      omega
    · have shorter := Feed.size_fetch_lt last
      simp [advance, Cursor.next, TokenSource.fetch, TokenSource.size, remaining, kind, notEnd,
        last]
      omega

end Formatter

end CListing
