import CListing.Reader.Basic

/-!
# Feeds

A feed is the finite sequence of fetches that a reader yields up to the end of its source. The end
can be fetched any number of times; only the first time it brings along the directives and notes
that stand before it. A reader has no feed if it never comes to the end: that happens when a piece
begins with a character that is upper case and neither a letter nor a number, because such a
character begins a word and belongs to none.

A feed knows its size, so loops along a feed are cheap to bound.
-/

namespace CListing

/-- The fetches up to the end of a source. -/
structure Feed where
  ahead : List Fetch
  /-- The number of fetches ahead. -/
  size : Nat := ahead.length
  /-- The line of the end. -/
  lastLine : Nat
  /-- The directives that stand before the end. -/
  closing : List Command := []
  /-- The notes about what stands before the end. -/
  closingNotes : List Note := []
  size_eq : size = ahead.length := by rfl
deriving DecidableEq, Repr

namespace Feed

/-- One more fetch in front of a feed. -/
def cons (first : Fetch) (feed : Feed) : Feed :=
  { feed with
    ahead := first :: feed.ahead
    size := feed.size + 1
    size_eq := congrArg (· + 1) feed.size_eq }

/-- The end of the source; what stands before it is taken along once. -/
def fetchEnd (feed : Feed) : Fetch × Feed :=
  ({ token := Token.ending feed.lastLine, script := feed.closing, notes := feed.closingNotes },
    { feed with closing := [], closingNotes := [] })

/-- Takes the next fetch. -/
def fetch (feed : Feed) : Fetch × Feed :=
  match feed with
  | { ahead := next :: rest, size, lastLine, closing, closingNotes, size_eq } =>
    (next,
      { ahead := rest
        size := size - 1
        lastLine := lastLine
        closing := closing
        closingNotes := closingNotes
        size_eq := by simp [size_eq] })
  | { ahead := [], .. } => feed.fetchEnd

@[simp]
theorem fetch_cons (first : Fetch) (feed : Feed) : (feed.cons first).fetch = (first, feed) :=
  rfl

@[simp]
theorem size_cons (first : Fetch) (feed : Feed) : (feed.cons first).size = feed.size + 1 :=
  rfl

/-- A feed is empty or has a first fetch. -/
theorem cases_ahead (feed : Feed) :
    (feed.ahead = [] ∧ feed.size = 0) ∨ ∃ first rest, feed = cons first rest := by
  obtain ⟨ahead, size, lastLine, closing, closingNotes, size_eq⟩ := feed
  subst size_eq
  cases ahead with
  | nil => exact Or.inl ⟨rfl, rfl⟩
  | cons first rest =>
    exact Or.inr ⟨first, { ahead := rest, lastLine, closing, closingNotes }, rfl⟩

theorem fetch_of_ahead_eq_nil {feed : Feed} (empty : feed.ahead = []) :
    feed.fetch = feed.fetchEnd := by
  obtain ⟨ahead, size, lastLine, closing, closingNotes, size_eq⟩ := feed
  subst empty
  rfl

/-- A fetch never makes a feed longer. -/
theorem size_fetch_le (feed : Feed) : feed.fetch.2.size ≤ feed.size := by
  rcases feed.cases_ahead with ⟨empty, _⟩ | ⟨first, rest, rfl⟩
  · rw [fetch_of_ahead_eq_nil empty]
    exact Nat.le_refl _
  · exact Nat.le_succ _

/-- A fetch before the end makes a feed shorter. -/
theorem size_fetch_lt {feed : Feed} (before : feed.fetch.1.token.category ≠ .endOfFile) :
    feed.fetch.2.size < feed.size := by
  rcases feed.cases_ahead with ⟨empty, _⟩ | ⟨first, rest, rfl⟩
  · rw [fetch_of_ahead_eq_nil empty] at before
    exact absurd rfl before
  · exact Nat.lt_succ_self _

/-- The feed of a reader that comes to the end within so many fetches. -/
def ofReaderWithin : Nat → Reader → Option Feed
  | 0, _ => none
  | limit + 1, reader =>
    let (fetch, next) := reader.fetch
    if fetch.token.category = .endOfFile then
      some {
        ahead := []
        lastLine := fetch.token.line
        closing := fetch.script
        closingNotes := fetch.notes }
    else
      (ofReaderWithin limit next).map (cons fetch)

/-- The feed of a reader. Each token but the last takes up a character. -/
def ofReader? (reader : Reader) : Option Feed :=
  ofReaderWithin (reader.chars.length + 1) reader

end Feed

end CListing
