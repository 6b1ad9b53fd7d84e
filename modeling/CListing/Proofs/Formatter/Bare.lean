import CListing.Proofs.Formatter.Simulation
import CListing.Proofs.Reader.ItemFeed

/-!
# Walks without places and notes

Neither the lines of tokens nor the log have an influence on the walk. So a walk along a feed does
what the walk along the items of the feed does: it writes the same script and reports as many tokens
missing.
-/

namespace CListing

/-- The cursor without places. -/
def Cursor.bare (cursor : Cursor Feed) : Cursor Feed where
  source := cursor.source.bare
  current := cursor.current.bare
  spacing := cursor.spacing
  lookahead? := cursor.lookahead?.map Token.bare

namespace Formatter

/-- The formatter without places and notes. -/
def bare (formatter : Formatter Feed) : Formatter Feed :=
  { formatter with
    cursor := formatter.cursor.bare
    token := formatter.token.bare
    notes := #[]
    misuse? := formatter.misuse?.map fun occupied => { token := occupied.token.bare } }

section Steps

variable (formatter : Formatter Feed)

theorem kind_bare : formatter.bare.kind = formatter.kind :=
  rfl

theorem remaining_bare : formatter.bare.remaining = formatter.remaining := by
  obtain ⟨cursor, token⟩ := formatter
  obtain ⟨source, current, spacing, lookahead, traced⟩ := cursor
  cases lookahead <;> rfl

theorem bare_advance : formatter.advance.bare = formatter.bare.advance := by
  obtain ⟨cursor, token⟩ := formatter
  obtain ⟨source, current, spacing, lookahead, traced⟩ := cursor
  cases lookahead with
  | some put => simp [advance, Cursor.next, bare, Cursor.bare]
  | none =>
    have fetched := Feed.fetch_bare source
    simp only [advance, Cursor.next, bare, Cursor.bare, TokenSource.fetch, Option.map_none, fetched]
    simp [Fetch.bare, Cursor.traceOf]
    rfl

theorem bare_putBack : formatter.putBack.bare = formatter.bare.putBack := by
  obtain ⟨cursor, token, script, notes, missing, functions, opened, closed, misuse⟩ := formatter
  obtain ⟨source, current, spacing, lookahead, traced⟩ := cursor
  cases lookahead <;> cases misuse <;> rfl

theorem bare_lookAt (token : Token) :
    (formatter.lookAt token).bare = (formatter.bare.lookAt token.bare) :=
  rfl

end Steps

/-- Two walks that differ in places and notes at most keep doing so. -/
theorem simulation_bare : Simulation fun f g : Formatter Feed => f.bare = g.bare where
  kind {f g} related := by
    rw [← kind_bare f, related, kind_bare]
  remaining {f g} related := by
    rw [← remaining_bare f, related, remaining_bare]
  perform {f g command} related _ := congrArg (·.perform command) related
  reportMissing {f g} required related :=
    congrArg (fun f : Formatter Feed => { f.reportMissing required with notes := #[] }) related
  markDeclaration {f g} related := congrArg markDeclaration related
  markExpression {f g} previous related := congrArg (·.markExpression previous) related
  joinLeft {f g} related _ := congrArg (·.adjust .left) related
  advance {f g} related := by
    rw [bare_advance, bare_advance, related]
  lookAgain {f g} related _ := by
    have token : f.token.bare = g.token.bare := congrArg Formatter.token related
    rw [bare_lookAt, bare_lookAt, bare_putBack, bare_putBack, bare_advance, bare_advance, related,
      token]
  countFunction {f g} related :=
    congrArg (fun f : Formatter Feed => { f with functions := f.functions + 1 }) related
  countOpened {f g} related :=
    congrArg (fun f : Formatter Feed => { f with bodiesOpened := f.bodiesOpened + 1 }) related
  countClosed {f g} related :=
    congrArg (fun f : Formatter Feed => { f with bodiesClosed := f.bodiesClosed + 1 }) related

/-- The formatter at the end of a walk along the given items. -/
def ofItems (items : List Item) : Formatter Feed :=
  (ofTokens (Feed.ofItems items) false []).file

/-- A walk along a feed is a walk along its items. -/
theorem bare_file {feed : Feed} {items : List Item} (bare : feed.bare = Feed.ofItems items)
    (traced : Bool) (notes : List Note) :
    (ofTokens feed traced notes).file.bare = (ofItems items).bare := by
  apply simulation_bare.file
  simp only [ofTokens, Formatter.bare, Cursor.bare, bare, Feed.bare_ofItems]

/-- The script of a walk is the one along the items. -/
theorem script_file {feed : Feed} {items : List Item} (bare : feed.bare = Feed.ofItems items)
    (traced : Bool) (notes : List Note) :
    (ofTokens feed traced notes).file.script = (ofItems items).script := by
  have script := congrArg Formatter.script (bare_file bare traced notes)
  exact script

end Formatter

end CListing
