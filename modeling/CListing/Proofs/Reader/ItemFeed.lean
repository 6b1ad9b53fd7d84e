import CListing.Proofs.Reader.Items
import CListing.Proofs.Scan.Directive

/-!
# Feeds of items

The feed of a reader, lines and notes left out, is determined by the items of the text. It exists
exactly if the items do. Its notes say which pieces lack their closing marks.
-/

namespace CListing

open Unicode Scan

/-- What a directive does to the listing. -/
def Item.commands (item : Item) : List Command :=
  .endLine false :: (Text.pieces '\n' item.lexeme).map .directive

/-- The token without its place. -/
def Token.bare (token : Token) : Token :=
  { token with line := 0 }

/-- The fetch without places and notes. -/
def Fetch.bare (fetch : Fetch) : Fetch where
  token := fetch.token.bare
  spacing? := fetch.spacing?
  script := fetch.script

namespace Feed

/-- The feed without places and notes. -/
def bare (feed : Feed) : Feed where
  ahead := feed.ahead.map Fetch.bare
  size := feed.size
  lastLine := 0
  closing := feed.closing
  size_eq := by rw [List.length_map, feed.size_eq]

/-- The feed after pieces that are no tokens. -/
def precede (script : List Command) (notes : List Note) (feed : Feed) : Feed :=
  match feed with
  | { ahead := first :: rest, size, lastLine, closing, closingNotes, size_eq } =>
    { ahead := first.after script notes :: rest, size, lastLine, closing, closingNotes, size_eq }
  | { ahead := [], size, lastLine, closing, closingNotes, size_eq } =>
    { ahead := [], size, lastLine, closing := script ++ closing,
      closingNotes := notes ++ closingNotes, size_eq }

/-- The feed of a sequence of items. -/
def ofItems : List Item → Feed
  | [] => { ahead := [], lastLine := 0, size_eq := @List.length_nil Fetch }
  | item :: items =>
    if item.isDirective then (ofItems items).precede item.commands []
    else
      (ofItems items).cons {
        token := { category := item.category, lexeme := item.lexeme, line := 0 }
        spacing? := (Operator.named? item.lexeme).map (·.spacing) }

/-- No fetch of the feed brings a note along. -/
def Quiet (feed : Feed) : Prop :=
  (∀ fetch ∈ feed.ahead, fetch.notes = []) ∧ feed.closingNotes = []

@[simp]
theorem bare_cons (first : Fetch) (feed : Feed) :
    (feed.cons first).bare = feed.bare.cons first.bare :=
  rfl

@[simp]
theorem bare_precede (script : List Command) (notes : List Note) (feed : Feed) :
    (feed.precede script notes).bare = feed.bare.precede script [] := by
  obtain ⟨ahead, size, lastLine, closing, closingNotes, size_eq⟩ := feed
  cases ahead <;> rfl

theorem quiet_cons {first : Fetch} {feed : Feed} :
    (feed.cons first).Quiet ↔ first.notes = [] ∧ feed.Quiet := by
  simp [Quiet, cons, and_assoc]

theorem quiet_precede {script : List Command} {notes : List Note} {feed : Feed} :
    (feed.precede script notes).Quiet ↔ notes = [] ∧ feed.Quiet := by
  obtain ⟨ahead, size, lastLine, closing, closingNotes, size_eq⟩ := feed
  cases ahead with
  | nil => simp [Quiet, precede]
  | cons first rest => simp [Quiet, precede, Fetch.after, and_assoc]

/-- What precedes a feed comes with its first fetch. -/
theorem fetch_precede (script : List Command) (notes : List Note) (feed : Feed) :
    (feed.precede script notes).fetch = (feed.fetch.1.after script notes, feed.fetch.2) := by
  obtain ⟨ahead, size, lastLine, closing, closingNotes, size_eq⟩ := feed
  cases ahead <;> rfl

@[simp]
theorem size_precede (script : List Command) (notes : List Note) (feed : Feed) :
    (feed.precede script notes).size = feed.size := by
  obtain ⟨ahead, size, lastLine, closing, closingNotes, size_eq⟩ := feed
  cases ahead <;> rfl

/-- Fetching does not look at places and notes. -/
theorem fetch_bare (feed : Feed) :
    feed.bare.fetch = (feed.fetch.1.bare, feed.fetch.2.bare) := by
  obtain ⟨ahead, size, lastLine, closing, closingNotes, size_eq⟩ := feed
  cases ahead <;> rfl

end Feed

namespace Scan

/-- A directive goes to the listing line by line. -/
theorem scriptOf_of_directive {text : List Char} (category : (next text).category = .directive) :
    Reader.scriptOf (next text) = (next text).item.commands := by
  rw [next] at category ⊢
  obtain ⟨rest, _, cut⟩ := exists_of_category_directive category
  rw [Reader.scriptOf, if_pos category, Item.commands, cut]
  rw [show (directive (text.dropWhile isBlank)).item.lexeme =
    (directive (text.dropWhile isBlank)).lexeme from rfl, pieces_lexeme_directive]

/-- A piece that is neither a comment nor a directive is a token or the end. -/
theorem isToken_next {text : List Char} (notEnd : (next text).category ≠ .endOfFile)
    (counts : (next text).category.isPassedOver = false) : (next text).IsToken := by
  rw [Category.isPassedOver, Bool.or_eq_false_iff, decide_eq_false_iff_not,
    decide_eq_false_iff_not] at counts
  exact isToken_of_category notEnd counts.1 counts.2

/-- A comment or a directive takes up a character. -/
theorem length_rest_next_lt_of_isPassedOver {text : List Char}
    (passed : (next text).category.isPassedOver = true) :
    (next text).rest.length < text.length := by
  apply length_rest_next_lt
  · intro barrier
    rw [next, (ofText_of_atBarrier barrier).1] at passed
    contradiction
  · intro last
    rw [last] at passed
    contradiction

end Scan

namespace Reader

/-- Any two credits that cover the text are alike. -/
theorem fetchWithin_congr {first second : List Char} {reader : Reader}
    (enough : reader.chars.length ≤ first.length)
    (otherEnough : reader.chars.length ≤ second.length) :
    fetchWithin first reader = fetchWithin second reader := by
  have stops {credit : List Char} {reader : Reader} (spent : reader.chars.length ≤ 0) :
      fetchWithin credit reader = reader.scan := by
    have empty : reader.chars = [] := List.eq_nil_of_length_eq_zero (Nat.le_zero.mp spent)
    have last : reader.scan.1.token.category = .endOfFile := by
      rw [category_scan, empty]
      rfl
    cases credit with
    | nil => rfl
    | cons _ credit => simp [fetchWithin, last, Category.isPassedOver]
  induction first generalizing second reader with
  | nil => rw [stops enough, stops enough]
  | cons _ first ih =>
    cases second with
    | nil => rw [stops otherEnough, stops otherEnough]
    | cons _ second =>
      simp only [fetchWithin]
      split
      · rename_i passed
        rw [category_scan] at passed
        have shorter := length_rest_next_lt_of_isPassedOver passed
        simp only [List.length_cons] at enough otherEnough
        rw [← chars_scan] at shorter
        have enoughLater : reader.scan.2.chars.length ≤ first.length := by omega
        have otherLater : reader.scan.2.chars.length ≤ second.length := by omega
        rw [ih enoughLater otherLater]
      · rfl

/-- A piece that is passed over leaves its script and its notes to the next fetch. -/
theorem fetch_of_isPassedOver {reader : Reader}
    (passed : (next reader.chars).category.isPassedOver = true) :
    reader.fetch =
      (reader.scan.2.fetch.1.after reader.scan.1.script reader.scan.1.notes,
        reader.scan.2.fetch.2) := by
  have shorter := length_rest_next_lt_of_isPassedOver passed
  rw [← chars_scan] at shorter
  rw [← category_scan] at passed
  unfold fetch
  cases chars : reader.chars with
  | nil => simp [chars] at shorter
  | cons c rest =>
    rw [chars, List.length_cons] at shorter
    simp only [fetchWithin, passed, if_true]
    have enough : reader.scan.2.chars.length ≤ rest.length := by omega
    rw [fetchWithin_congr enough (Nat.le_refl _)]

/-- Any other piece is fetched. -/
theorem fetch_of_counts {reader : Reader}
    (counts : (next reader.chars).category.isPassedOver = false) : reader.fetch = reader.scan := by
  rw [← category_scan] at counts
  unfold fetch
  cases reader.chars with
  | nil => rfl
  | cons c rest => simp [fetchWithin, counts]

end Reader

namespace Feed

theorem ofReaderWithin_of_isPassedOver {limit : Nat} {reader : Reader}
    (passed : (next reader.chars).category.isPassedOver = true) :
    ofReaderWithin limit reader =
      (ofReaderWithin limit reader.scan.2).map
        (precede reader.scan.1.script reader.scan.1.notes) := by
  cases limit with
  | zero => rfl
  | succ limit =>
    simp only [ofReaderWithin, Reader.fetch_of_isPassedOver passed]
    by_cases last : reader.scan.2.fetch.1.token.category = .endOfFile
    · simp [Fetch.after, last, precede]
    · simp only [Fetch.after, last, if_false, Option.map_map]
      rfl

theorem ofReaderWithin_of_endOfFile {limit : Nat} {reader : Reader}
    (last : (next reader.chars).category = .endOfFile) :
    ofReaderWithin (limit + 1) reader =
      some {
        ahead := []
        lastLine := reader.scan.1.token.line
        closing := reader.scan.1.script
        closingNotes := reader.scan.1.notes } := by
  have counts : (next reader.chars).category.isPassedOver = false := by
    rw [last]
    rfl
  rw [← Reader.category_scan] at last
  simp [ofReaderWithin, Reader.fetch_of_counts counts, last]

theorem ofReaderWithin_of_token {limit : Nat} {reader : Reader}
    (notEnd : (next reader.chars).category ≠ .endOfFile)
    (counts : (next reader.chars).category.isPassedOver = false) :
    ofReaderWithin (limit + 1) reader =
      (ofReaderWithin limit reader.scan.2).map (cons reader.scan.1) := by
  rw [← Reader.category_scan] at notEnd
  simp [ofReaderWithin, Reader.fetch_of_counts counts, notEnd]

end Feed

@[simp]
theorem Feed.bare_ofItems (items : List Item) : (Feed.ofItems items).bare = Feed.ofItems items := by
  induction items with
  | nil => rfl
  | cons item items ih =>
    simp only [Feed.ofItems]
    split
    · rw [Feed.bare_precede, ih]
    · rw [Feed.bare_cons, ih]
      rfl

/-! ## Notes -/

namespace Reader

theorem take_of_faultless {reader : Reader} (faultless : reader.fault? = none) (cut : Cut) :
    (reader.take cut).2 = [] ∧ (reader.take cut).1.fault? = none := by
  unfold take notice
  split
  · exact ⟨rfl, faultless⟩
  · simp [faultless]

/-- In a source that is read to its end, the only notes of a scan are about its piece. -/
theorem scan_of_faultless {reader : Reader} (faultless : reader.fault? = none) :
    reader.scan.1.notes = noteOf reader.skipBlanks.1.line (next reader.chars) ∧
      reader.scan.2.fault? = none := by
  have blanks := take_of_faultless faultless (Cut.span isBlank reader.chars)
  rw [next, ← chars_skipBlanks]
  have still : reader.skipBlanks.1.fault? = none := blanks.2
  have piece := take_of_faultless still
    { extent := (ofText reader.skipBlanks.1.chars).extent,
      rest := (ofText reader.skipBlanks.1.chars).rest }
  refine ⟨?_, piece.2⟩
  have noBlankNotes : reader.skipBlanks.2 = [] := blanks.1
  simp only [scan]
  rw [noBlankNotes, piece.1]
  rfl

theorem noteOf_eq_nil_iff (line : Nat) (scan : Scan) :
    noteOf line scan = [] ↔ scan.closed = true := by
  unfold noteOf
  split
  · simp [*]
  · split <;> simp_all

/-- A scan without notes finds a piece with its closing mark. -/
theorem closed_of_notes_scan {reader : Reader} (silent : reader.scan.1.notes = []) :
    (next reader.chars).closed = true := by
  rw [next, ← chars_skipBlanks]
  apply (noteOf_eq_nil_iff reader.skipBlanks.1.line _).mp
  exact (List.append_eq_nil_iff.mp silent).2

end Reader

namespace Feed

@[simp]
theorem precede_nil (feed : Feed) : feed.precede [] [] = feed := by
  obtain ⟨ahead, size, lastLine, closing, closingNotes, size_eq⟩ := feed
  cases ahead <;> rfl

/-- The fetch of a token is its item with the spacing of its lexeme. -/
theorem bare_scan {reader : Reader} (token : (next reader.chars).IsToken)
    (plain : (next reader.chars).category ≠ .directive) :
    reader.scan.1.bare = {
      token := {
        category := (next reader.chars).item.category
        lexeme := (next reader.chars).item.lexeme
        line := 0 }
      spacing? := (Operator.named? (next reader.chars).item.lexeme).map (·.spacing) } := by
  have noScript : reader.scan.1.script = [] := by
    rw [Reader.script_scan, Reader.scriptOf, if_neg plain]
  have item := reader.item_scan
  have spacing := reader.spacing_scan
  rw [token.spacing] at spacing
  simp only [Token.item, Scan.item, Item.mk.injEq] at item
  simp [Fetch.bare, Token.bare, noScript, spacing, item, Scan.item]

/-- With the notes of the scan before it, a feed is quiet only if the piece has its closing mark
too, and if the source was read to its end, there are no other notes. -/
theorem quiet_behind_scan {reader : Reader} {feed : Feed} {closed : Bool}
    (whole : feed.Quiet → closed = true)
    (quiet : reader.scan.2.fault? = none → closed = true → feed.Quiet) :
    (reader.scan.1.notes = [] ∧ feed.Quiet → ((next reader.chars).closed && closed) = true) ∧
      (reader.fault? = none → ((next reader.chars).closed && closed) = true →
        reader.scan.1.notes = [] ∧ feed.Quiet) := by
  rw [Bool.and_eq_true]
  refine ⟨And.imp Reader.closed_of_notes_scan whole, ?_⟩
  intro faultless
  obtain ⟨notes, still⟩ := Reader.scan_of_faultless faultless
  rw [notes, Reader.noteOf_eq_nil_iff]
  exact And.imp_right (quiet still)

/-! ## Feeds and items -/

/-- The feed of a text that consists of items is the feed of the items, up to places and notes. It
is quiet only if all pieces have their closing marks, and if the source was read to its end, nothing
else is noted. -/
theorem exists_ofReaderWithin {text : List Char} {items : List Item} {closed : Bool}
    (reads : Reads text items closed) {limit : Nat} (enough : text.length < limit)
    {reader : Reader} (here : reader.chars = text) :
    ∃ feed, ofReaderWithin limit reader = some feed ∧ feed.bare = ofItems items ∧
      (feed.Quiet → closed = true) ∧
      (reader.fault? = none → closed = true → feed.Quiet) := by
  induction reads generalizing limit reader with
  | ending category =>
    subst here
    cases limit with
    | zero => contradiction
    | succ limit =>
      refine ⟨_, ofReaderWithin_of_endOfFile category, ?_, fun _ => rfl, ?_⟩
      · rw [Reader.script_scan, Reader.scriptOf, category]
        rfl
      · intro faultless _
        have notes := (Reader.scan_of_faultless faultless).1
        rw [next_of_dropWhile_eq_nil (category_next_eq_endOfFile_iff.mp category)] at notes
        simp [Quiet, notes, Reader.noteOf, Scan.ending, ofCut]
  | comment category later ih =>
    subst here
    have shorter := length_rest_next_lt (Reads.comment category later).free (by simp [category])
    have fits : (next reader.chars).rest.length < limit := by omega
    obtain ⟨feed, found, bare, whole, quiet⟩ := ih fits reader.chars_scan
    have passed : (next reader.chars).category.isPassedOver = true := by
      rw [category]
      rfl
    refine ⟨_, by rw [ofReaderWithin_of_isPassedOver passed, found]; rfl, ?_, ?_⟩
    · rw [bare_precede, bare, Reader.script_scan, Reader.scriptOf, category]
      exact precede_nil _
    · rw [quiet_precede]
      exact quiet_behind_scan whole quiet
  | item notEnd noComment later ih =>
    subst here
    have shorter := length_rest_next_lt (Reads.item notEnd noComment later).free notEnd
    by_cases directive : (next reader.chars).category = .directive
    · have fits : (next reader.chars).rest.length < limit := by omega
      obtain ⟨feed, found, bare, whole, quiet⟩ := ih fits reader.chars_scan
      have passed : (next reader.chars).category.isPassedOver = true := by
        rw [directive]
        rfl
      refine ⟨_, by rw [ofReaderWithin_of_isPassedOver passed, found]; rfl, ?_, ?_⟩
      · rw [bare_precede, bare, Reader.script_scan, scriptOf_of_directive directive, ofItems,
          if_pos (by simp [Item.isDirective, Scan.item, directive])]
      · rw [quiet_precede]
        exact quiet_behind_scan whole quiet
    · cases limit with
      | zero => contradiction
      | succ limit =>
        have fits : (next reader.chars).rest.length < limit := by omega
        obtain ⟨feed, found, bare, whole, quiet⟩ := ih fits reader.chars_scan
        have counts : (next reader.chars).category.isPassedOver = false := by
          simp [Category.isPassedOver, noComment, directive]
        refine ⟨_, by rw [ofReaderWithin_of_token notEnd counts, found]; rfl, ?_, ?_⟩
        · rw [bare_cons, bare, ofItems, if_neg (by simp [Item.isDirective, Scan.item, directive]),
            bare_scan (isToken_next notEnd counts) directive]
        · rw [quiet_cons]
          exact quiet_behind_scan whole quiet

/-- A reader that has a feed reads a text that consists of items. -/
theorem exists_reads {limit : Nat} {reader : Reader} {feed : Feed}
    (found : ofReaderWithin limit reader = some feed) :
    ∃ items closed, Reads reader.chars items closed := by
  induction limit generalizing reader feed with
  | zero => contradiction
  | succ limit ih =>
    induction length : reader.chars.length using Nat.strong_induction_on
      generalizing reader feed with
    | _ size inner =>
      subst length
      by_cases last : (next reader.chars).category = .endOfFile
      · exact ⟨[], true, Reads.ending last⟩
      · have later : ∃ items closed, Reads (next reader.chars).rest items closed := by
          rw [← Reader.chars_scan]
          by_cases passed : (next reader.chars).category.isPassedOver = true
          · rw [ofReaderWithin_of_isPassedOver passed] at found
            obtain ⟨rest, restFound, _⟩ := Option.map_eq_some_iff.mp found
            have shorter := length_rest_next_lt_of_isPassedOver passed
            rw [← Reader.chars_scan] at shorter
            exact inner _ shorter restFound rfl
          · rw [ofReaderWithin_of_token last (by simpa using passed)] at found
            obtain ⟨rest, restFound, _⟩ := Option.map_eq_some_iff.mp found
            exact ih restFound
        obtain ⟨items, closed, later⟩ := later
        by_cases comment : (next reader.chars).category = .comment
        · exact ⟨items, _, Reads.comment comment later⟩
        · exact ⟨_, _, Reads.item last comment later⟩

/-- The feed of a reader is that of the items of its text, up to places and notes. It is quiet only
if all pieces have their closing marks. -/
theorem exists_items {reader : Reader} {feed : Feed} (found : ofReader? reader = some feed) :
    ∃ items closed, Reads reader.chars items closed ∧ feed.bare = ofItems items ∧
      (feed.Quiet → closed = true) := by
  obtain ⟨items, closed, reads⟩ := exists_reads found
  obtain ⟨other, otherFound, bare, whole, _⟩ :=
    exists_ofReaderWithin reads (Nat.lt_succ_self _) rfl
  obtain rfl : feed = other := Option.some.inj (found.symm.trans otherFound)
  exact ⟨items, closed, reads, bare, whole⟩

end Feed

/-- A source with items has a feed, which is the feed of its items up to places and notes. -/
theorem Source.exists_feed {source : Source} {items : List Item}
    (found : source.items? = some items) :
    ∃ feed, Feed.ofReader? (Reader.ofSource source).1 = some feed ∧
      feed.bare = Feed.ofItems items := by
  obtain ⟨closed, reads⟩ := Reader.reads_of_itemsWithin found
  obtain ⟨feed, feedFound, bare, _⟩ := Feed.exists_ofReaderWithin reads (Nat.lt_succ_self _) rfl
  exact ⟨feed, feedFound, bare⟩

end CListing
