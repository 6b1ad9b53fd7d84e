import CListing.Reader.Feed

/-!
# Cursors

A cursor holds the current token of a source and writes it out only when the next one is fetched,
so that its spacing can still be adjusted in the light of what follows. One token can be put back:
the next step then returns it again, writes nothing and keeps the spacing.
-/

namespace CListing

/-- Whatever fetches can be taken from, one after the other. -/
class TokenSource (σ : Type) where
  fetch : σ → Fetch × σ
  /-- If there is an end, no more tokens than these are before it. -/
  size : σ → Nat

/-- Each token before the end takes up a character of the text. -/
instance : TokenSource Reader := ⟨Reader.fetch, fun reader => reader.chars.length⟩

instance : TokenSource Feed := ⟨Feed.fetch, Feed.size⟩

/-- A token source with its current token. -/
structure Cursor (σ : Type) where
  source : σ
  current : Token := Token.start
  /-- The spacing of the current token. -/
  spacing : Spacing := .free
  /-- The token that was put back. -/
  lookahead? : Option Token := none
  /-- Each token fetched is noted in the log. -/
  traced : Bool := false
deriving DecidableEq, Repr

namespace Cursor

variable {σ : Type}

/-- A cursor after a step, with what the step brings about. -/
structure Outcome (σ : Type) where
  cursor : Cursor σ
  script : List Command := []
  notes : List Note := []
deriving DecidableEq, Repr

/-- The current token goes to the listing, unless it has no text. -/
def release (cursor : Cursor σ) : List Command :=
  if cursor.current.lexeme.isEmpty then []
  else [.append cursor.current.lexeme cursor.spacing]

/-- The note about a token that was fetched. -/
def traceOf (cursor : Cursor σ) (token : Token) : List Note :=
  if cursor.traced then [.token token] else []

/-- Goes on to the next token. -/
def next [TokenSource σ] (cursor : Cursor σ) : Outcome σ :=
  match cursor.lookahead? with
  | some token => { cursor := { cursor with current := token, lookahead? := none } }
  | none =>
    let (fetch, source) := TokenSource.fetch cursor.source
    { cursor :=
        { cursor with
          source := source
          current := fetch.token
          spacing := fetch.spacing?.getD .free }
      script := cursor.release ++ fetch.commands
      notes := fetch.notes ++ cursor.traceOf fetch.token }

/-- The place for the token put back is taken by the given token. -/
structure Occupied where
  token : Token
deriving DecidableEq, Repr

/-- The wording of the error. -/
def Occupied.message (error : Occupied) : String :=
  "Token \"" ++ String.ofList error.token.lexeme ++ "\" is already put back"

/-- Puts the current token back. There is room for one. -/
def putBack (cursor : Cursor σ) : Except Occupied (Cursor σ) :=
  match cursor.lookahead? with
  | some token => .error { token := token }
  | none => .ok { cursor with lookahead? := some cursor.current }

/-- Adds marks to the spacing of the current token. -/
def adjust (cursor : Cursor σ) (spacing : Spacing) : Cursor σ :=
  { cursor with spacing := cursor.spacing.merge spacing }

/-- Marks the current token as one of a declaration. -/
def markDeclaration (cursor : Cursor σ) (category : Category) : Cursor σ :=
  cursor.adjust category.declarationSpacing

/-- Marks the current token as one of an expression, after a token of the category `previous`. -/
def markExpression (cursor : Cursor σ) (category previous : Category) : Cursor σ :=
  cursor.adjust (category.expressionSpacing previous)

/-- Changes the place of the reader below, with the notes that this brings about. -/
def moveReader (cursor : Cursor Reader) (move : Reader → Reader × List Note) : Outcome Reader :=
  let (reader, notes) := move cursor.source
  { cursor := { cursor with source := reader }, notes := notes }

/-- Fetches the next piece past the current token, which stays what it is. The spacing becomes the
one of the piece if its spelling fixes one. -/
def scanAhead (cursor : Cursor Reader) : Token × Outcome Reader :=
  let (fetch, reader) := cursor.source.scan
  (fetch.token,
    { cursor := { cursor with source := reader, spacing := fetch.spacing?.getD cursor.spacing }
      script := fetch.commands
      notes := fetch.notes })

/-- A token with text goes to the listing with its spacing. -/
theorem release_of_ne_nil {cursor : Cursor σ} (filled : cursor.current.lexeme ≠ []) :
    cursor.release = [.append cursor.current.lexeme cursor.spacing] :=
  if_neg (by simpa using filled)

/-- Putting back fails exactly when a token is already put back. -/
theorem putBack_eq_error_iff (cursor : Cursor σ) (error : Occupied) :
    cursor.putBack = .error error ↔ cursor.lookahead? = some error.token := by
  obtain ⟨token⟩ := error
  cases slot : cursor.lookahead? <;> simp [putBack, slot]

/-- A step leaves no token put back. -/
theorem lookahead?_next [TokenSource σ] (cursor : Cursor σ) :
    cursor.next.cursor.lookahead? = none := by
  cases slot : cursor.lookahead? <;> simp [next, slot]

/-- Putting the current token back and going on restores the cursor. -/
theorem next_putBack [TokenSource σ] {cursor restored : Cursor σ}
    (put : cursor.putBack = .ok restored) : restored.next = { cursor := cursor } := by
  cases slot : cursor.lookahead? with
  | some token => simp [putBack, slot] at put
  | none =>
    simp only [putBack, slot, Except.ok.injEq] at put
    subst put
    obtain ⟨source, current, spacing, lookahead, traced⟩ := cursor
    simp only at slot
    subst slot
    rfl

end Cursor

end CListing
