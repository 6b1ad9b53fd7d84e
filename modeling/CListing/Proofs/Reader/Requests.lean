import CListing.Reader.Cursor

/-!
# Requests to a cursor

Whatever is asked of a cursor, and in whatever order, each token goes to the listing once: when the
token after it is fetched. At most one token is put back, and it is the current one; to put back
another one is refused and changes nothing. So the sequence of the requests decides only how many
tokens have been fetched.
-/

namespace CListing

/-- The lexemes that a script adds. -/
def appended (script : List Command) : List (List Char) :=
  script.filterMap fun
    | .append lexeme _ => some lexeme
    | _ => none

theorem appended_append (first second : List Command) :
    appended (first ++ second) = appended first ++ appended second :=
  List.filterMap_append

namespace Reader

/-- The reader after so many tokens. -/
def afterTokens (reader : Reader) : Nat → Reader
  | 0 => reader
  | count + 1 => (reader.afterTokens count).fetch.2

/-- The first tokens that a reader fetches, so many of them. -/
def tokens (reader : Reader) : Nat → List Token
  | 0 => []
  | count + 1 => reader.tokens count ++ [(reader.afterTokens count).fetch.1.token]

/-- Directives are no lexemes. -/
theorem appended_scriptOf (scan : Scan) : appended (scriptOf scan) = [] := by
  have lines (texts : List (List Char)) : appended (texts.map .directive) = [] := by
    induction texts with
    | nil => rfl
    | cons text texts ih => exact ih
  unfold scriptOf
  split
  · exact lines scan.lines
  · rfl

theorem appended_fetchWithin (credit : List Char) (reader : Reader) :
    appended (fetchWithin credit reader).1.script = [] := by
  induction credit generalizing reader with
  | nil => exact appended_scriptOf _
  | cons _ credit ih =>
    simp only [fetchWithin]
    split
    · rw [Fetch.after, appended_append, ih, List.append_nil]
      exact appended_scriptOf _
    · exact appended_scriptOf _

/-- No lexeme is added when a token is fetched. -/
theorem appended_commands_fetch (reader : Reader) : appended reader.fetch.1.commands = [] := by
  have ending (last : Bool) :
      appended (if last then [Command.endLine false] else []) = [] := by
    cases last <;> rfl
  have script : appended reader.fetch.1.script = [] := appended_fetchWithin _ _
  rw [Fetch.commands, appended_append, script, List.nil_append]
  simpa using ending (decide (reader.fetch.1.token.category = .endOfFile))

end Reader

namespace Cursor

variable {σ : Type}

/-- What can be asked of a cursor. -/
inductive Request
  | next
  | putBack
  | adjust (spacing : Spacing)
  | markDeclaration (category : Category)
  | markExpression (category previous : Category)
deriving DecidableEq, Repr

/-- A cursor after some requests, with all that they brought about. -/
structure Session (σ : Type) where
  cursor : Cursor σ
  script : List Command := []
  notes : List Note := []
  /-- Why requests were refused. -/
  refusals : List Occupied := []
deriving DecidableEq, Repr

section Requests

variable [TokenSource σ]

/-- The answer to a request. -/
def serve (cursor : Cursor σ) : Request → Except Occupied (Outcome σ)
  | .next => .ok cursor.next
  | .putBack => cursor.putBack.map fun put => { cursor := put }
  | .adjust spacing => .ok { cursor := cursor.adjust spacing }
  | .markDeclaration category => .ok { cursor := cursor.markDeclaration category }
  | .markExpression category previous => .ok { cursor := cursor.markExpression category previous }

namespace Session

/-- Goes on with a request. One that is refused changes nothing else. -/
def step (session : Session σ) (request : Request) : Session σ :=
  match session.cursor.serve request with
  | .error refusal => { session with refusals := session.refusals ++ [refusal] }
  | .ok outcome =>
    { session with
      cursor := outcome.cursor
      script := session.script ++ outcome.script
      notes := session.notes ++ outcome.notes }

/-- Goes on with requests in order. -/
def run (session : Session σ) (requests : List Request) : Session σ :=
  requests.foldl step session

end Session

/-- A request is refused exactly if it is to put back a token while one is put back. -/
theorem serve_eq_error_iff (cursor : Cursor σ) (request : Request) (refusal : Occupied) :
    cursor.serve request = .error refusal ↔
      request = .putBack ∧ cursor.lookahead? = some refusal.token := by
  cases request with
  | putBack =>
    rw [← putBack_eq_error_iff, serve]
    cases cursor.putBack <;> simp [Except.map]
  | _ => simp [serve]

theorem step_of_occupied {session : Session σ} {token : Token}
    (occupied : session.cursor.lookahead? = some token) :
    session.step .putBack = { session with refusals := session.refusals ++ [⟨token⟩] } := by
  have refused := (serve_eq_error_iff session.cursor .putBack ⟨token⟩).mpr ⟨rfl, occupied⟩
  rw [Session.step, refused]

/-- With no token put back the next one is fetched, and the current one goes to the script. -/
theorem step_next_of_free {session : Session σ} (free : session.cursor.lookahead? = none) :
    session.step .next =
      { session with
        cursor :=
          { session.cursor with
            source := (TokenSource.fetch session.cursor.source).2
            current := (TokenSource.fetch session.cursor.source).1.token
            spacing := (TokenSource.fetch session.cursor.source).1.spacing?.getD .free
            lookahead? := none }
        script := session.script ++
          (session.cursor.release ++ (TokenSource.fetch session.cursor.source).1.commands)
        notes := session.notes ++ ((TokenSource.fetch session.cursor.source).1.notes ++
          session.cursor.traceOf (TokenSource.fetch session.cursor.source).1.token) } := by
  rw [Session.step, serve, next, free]

/-- A token put back is the current one again, and nothing is written. -/
theorem step_next_of_put {session : Session σ} {token : Token}
    (put : session.cursor.lookahead? = some token) :
    session.step .next =
      { session with cursor := { session.cursor with current := token, lookahead? := none } } := by
  rw [Session.step, serve, next, put]
  simp

theorem step_putBack_of_free {session : Session σ} (free : session.cursor.lookahead? = none) :
    session.step .putBack =
      { session with
        cursor := { session.cursor with lookahead? := some session.cursor.current } } := by
  rw [Session.step, serve, putBack, free]
  simp [Except.map]

/-- Putting a token back and going on restores the session. -/
theorem step_putBack_next {session : Session σ} (free : session.cursor.lookahead? = none) :
    (session.step .putBack).step .next = session := by
  rw [step_putBack_of_free free, step_next_of_put rfl, ← free]

end Requests

/-- The current token is written unless it has no text. -/
theorem appended_release (cursor : Cursor σ) :
    appended cursor.release = [cursor.current.lexeme].filter (· ≠ []) := by
  unfold release
  cases cursor.current.lexeme <;> rfl

/-- The tokens fetched so far: all but the current one are in the script, in their order, unless
they have no text. The token put back is the current one. -/
structure Flushed (reader : Reader) (session : Session Reader) : Prop where
  slot : session.cursor.lookahead? = none ∨
    session.cursor.lookahead? = some session.cursor.current
  fetched : ∃ count flushed, session.cursor.source = reader.afterTokens count ∧
    Token.start :: reader.tokens count = flushed ++ [session.cursor.current] ∧
      appended session.script = (flushed.map (·.lexeme)).filter (· ≠ [])

namespace Flushed

variable {reader : Reader} {session : Session Reader}

theorem start (reader : Reader) (traced : Bool) :
    Flushed reader { cursor := { source := reader, traced := traced } } where
  slot := Or.inl rfl
  fetched := ⟨0, [], rfl, rfl, rfl⟩

/-- The current token goes to the script, unless the next one is the token put back. -/
theorem next (flushed : Flushed reader session) : Flushed reader (session.step .next) := by
  obtain ⟨slot, count, tokens, source, fetched, script⟩ := flushed
  rcases slot with free | put
  · rw [step_next_of_free free]
    refine ⟨Or.inl rfl, count + 1, tokens ++ [session.cursor.current], ?_, ?_, ?_⟩
    · exact congrArg (·.fetch.2) source
    · have next : (TokenSource.fetch session.cursor.source).1.token =
          (reader.afterTokens count).fetch.1.token := by
        rw [source]
        rfl
      rw [Reader.tokens, ← List.cons_append, fetched, next]
    · have quiet : appended (TokenSource.fetch session.cursor.source).1.commands = [] :=
        Reader.appended_commands_fetch session.cursor.source
      rw [appended_append, appended_append, script, quiet, List.append_nil, appended_release,
        List.map_append, List.filter_append]
      rfl
  · rw [step_next_of_put put]
    exact ⟨Or.inl rfl, count, tokens, source, fetched, script⟩

/-- Only the current token is put back. -/
theorem putBack (flushed : Flushed reader session) : Flushed reader (session.step .putBack) := by
  cases slot : session.cursor.lookahead? with
  | some token =>
    rw [step_of_occupied slot]
    exact ⟨flushed.slot, flushed.fetched⟩
  | none =>
    rw [step_putBack_of_free slot]
    exact ⟨Or.inr rfl, flushed.fetched⟩

/-- Nothing is written when the spacing is adjusted. -/
theorem adjust (flushed : Flushed reader session) (spacing : Spacing) :
    Flushed reader (session.step (.adjust spacing)) where
  slot := flushed.slot
  fetched := by
    obtain ⟨count, tokens, source, fetched, script⟩ := flushed.fetched
    exact ⟨count, tokens, source, fetched, (congrArg appended (List.append_nil _)).trans script⟩

theorem step (flushed : Flushed reader session) (request : Request) :
    Flushed reader (session.step request) := by
  cases request with
  | next => exact flushed.next
  | putBack => exact flushed.putBack
  | adjust spacing => exact flushed.adjust spacing
  | markDeclaration category => exact flushed.adjust category.declarationSpacing
  | markExpression category previous => exact flushed.adjust (category.expressionSpacing previous)

/-- Each token is flushed once, whatever the requests are. -/
theorem run (flushed : Flushed reader session) (requests : List Request) :
    Flushed reader (session.run requests) := by
  induction requests generalizing session with
  | nil => exact flushed
  | cons request requests ih => exact ih (flushed.step request)

end Flushed

end Cursor

end CListing
