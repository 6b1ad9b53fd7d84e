import CListing.Proofs.Scan.Piece
import CListing.Reader.Feed
import Mathlib.Data.List.DropRight

/-!
# The items of a source

What a reader finds in a text, place and comments left out: a sequence of tokens and directives.
There is such a sequence exactly if the reader never stands at a barrier, which is a character that
begins a word and belongs to none. The sequence depends on the characters alone, and the relation
`Reads` gives it by the pieces of the text.
-/

namespace CListing

open Unicode

/-- A token or a directive of a source. -/
structure Item where
  category : Category
  /-- The text of the token, or the lines of the directive with line feeds between them. -/
  lexeme : List Char
deriving DecidableEq, Repr

/-- The item is a directive. -/
def Item.isDirective (item : Item) : Bool :=
  item.category = .directive

/-- A token is no directive. -/
theorem Item.isDirective_of_isToken {item : Item} (token : item.category.isToken = true) :
    item.isDirective = false := by
  cases directive : item.isDirective with
  | false => rfl
  | true =>
    rw [of_decide_eq_true directive] at token
    contradiction

/-- What a token is, wherever it stands. -/
def Token.item (token : Token) : Item where
  category := token.category
  lexeme := token.lexeme

namespace Reader

/-- The items up to the end of the text, if the end is reached within so many pieces. -/
def itemsWithin : Nat → Reader → Option (List Item)
  | 0, _ => none
  | limit + 1, reader =>
    let (fetch, next) := reader.scan
    match fetch.token.category with
    | .endOfFile => some []
    | .comment => itemsWithin limit next
    | _ => (itemsWithin limit next).map (fetch.token.item :: ·)

/-- The items up to the end of the text. Every piece but the last takes up a character. -/
def items? (reader : Reader) : Option (List Item) :=
  itemsWithin (reader.chars.length + 1) reader

/-- The reader after so many pieces. -/
def afterPieces : Nat → Reader → Reader
  | 0, reader => reader
  | count + 1, reader => afterPieces count reader.scan.2

end Reader

namespace Source

/-- The tokens and directives of a source in their order. -/
def items? (source : Source) : Option (List Item) :=
  (Reader.ofSource source).1.items?

/-- The tokens of a source in their order. -/
def tokens? (source : Source) : Option (List Item) :=
  source.items?.map fun items => items.filter (!·.isDirective)

/-- The reader of the source never stands at a barrier. -/
def ReadsFreely (source : Source) : Prop :=
  ∀ count, ¬ Scan.AtBarrier
    (((Reader.ofSource source).1.afterPieces count).chars.dropWhile isBlank)

end Source

namespace Scan

/-- The piece after the blanks at the head of a text. -/
def next (text : List Char) : Scan :=
  ofText (text.dropWhile isBlank)

/-- What the piece is, wherever it stands. -/
def item (scan : Scan) : Item where
  category := scan.category
  lexeme := scan.lexeme

theorem next_of_dropWhile_eq_nil {text : List Char} (blank : text.dropWhile isBlank = []) :
    next text = ending := by
  rw [next, blank]
  rfl

/-- The text ends after its blanks exactly if the piece is the end. -/
theorem category_next_eq_endOfFile_iff {text : List Char} :
    (next text).category = .endOfFile ↔ text.dropWhile isBlank = [] := by
  constructor
  · intro last
    rw [next] at last
    generalize text.dropWhile isBlank = chars at last
    cases head chars with
    | ending => rfl
    | comment _ category =>
      rw [category] at last
      contradiction
    | directive => contradiction
    | token _ _ token =>
      have category := token.category
      rw [last] at category
      contradiction
  · intro blank
    rw [next_of_dropWhile_eq_nil blank]
    rfl

/-- A piece that is not the end leaves less text, except at a barrier. -/
theorem length_rest_next_lt {text : List Char} (free : ¬ AtBarrier (text.dropWhile isBlank))
    (before : (next text).category ≠ .endOfFile) : (next text).rest.length < text.length := by
  have shorter := (List.dropWhile_suffix isBlank (l := text)).length_le
  have whole := congrArg List.length (text_ofText (text.dropWhile isBlank))
  rw [ne_eq, category_next_eq_endOfFile_iff] at before
  rw [next]
  generalize text.dropWhile isBlank = chars at free before shorter whole
  cases chars with
  | nil => contradiction
  | cons c rest =>
    have taken := List.length_pos_iff.mpr (extent_ne_nil free)
    rw [Scan.text, List.length_append] at whole
    omega

/-- No piece leaves more text. -/
theorem length_rest_next_le (text : List Char) : (next text).rest.length ≤ text.length := by
  have shorter := (List.dropWhile_suffix isBlank (l := text)).length_le
  have whole := congrArg List.length (text_ofText (text.dropWhile isBlank))
  rw [Scan.text, List.length_append] at whole
  rw [next]
  omega

end Scan

open Scan

/-- The text consists of the given items, with blanks and comments between them; the flag says
whether all its pieces have their closing marks. -/
inductive Reads : List Char → List Item → Bool → Prop
  | ending {text : List Char} (category : (next text).category = .endOfFile) : Reads text [] true
  | comment {text : List Char} {items : List Item} {closed : Bool}
      (category : (next text).category = .comment) (later : Reads (next text).rest items closed) :
      Reads text items ((next text).closed && closed)
  | item {text : List Char} {items : List Item} {closed : Bool}
      (notEnd : (next text).category ≠ .endOfFile) (noComment : (next text).category ≠ .comment)
      (later : Reads (next text).rest items closed) :
      Reads text ((next text).item :: items) ((next text).closed && closed)

namespace Reads

variable {text : List Char} {items : List Item} {closed : Bool}

/-- A text consists of one sequence of items. -/
theorem unique (reads : Reads text items closed) {otherItems : List Item} {otherClosed : Bool}
    (other : Reads text otherItems otherClosed) : items = otherItems ∧ closed = otherClosed := by
  induction reads generalizing otherItems otherClosed with
  | ending category =>
    cases other with
    | ending _ => exact ⟨rfl, rfl⟩
    | comment comment _ =>
      rw [category] at comment
      contradiction
    | item notEnd _ _ => contradiction
  | comment category _ ih =>
    cases other with
    | ending last =>
      rw [category] at last
      contradiction
    | comment _ later =>
      obtain ⟨rfl, rfl⟩ := ih later
      exact ⟨rfl, rfl⟩
    | item _ noComment _ => contradiction
  | item notEnd noComment _ ih =>
    cases other with
    | ending last => contradiction
    | comment comment _ => contradiction
    | item _ _ later =>
      obtain ⟨rfl, rfl⟩ := ih later
      exact ⟨rfl, rfl⟩

/-- A text that consists of items does not begin with a barrier. -/
theorem free (reads : Reads text items closed) : ¬ AtBarrier (text.dropWhile isBlank) := by
  have stays {chars : List Char} (barrier : AtBarrier (chars.dropWhile isBlank)) :
      (next chars).rest.dropWhile isBlank = chars.dropWhile isBlank := by
    rw [next, rest_of_atBarrier barrier, List.dropWhile_idempotent]
  induction reads with
  | ending category =>
    rw [category_next_eq_endOfFile_iff.mp category]
    simp [AtBarrier]
  | comment _ _ ih =>
    intro barrier
    rw [stays barrier] at ih
    exact ih barrier
  | item _ _ _ ih =>
    intro barrier
    rw [stays barrier] at ih
    exact ih barrier

end Reads

namespace Reader

@[simp]
theorem chars_notice (reader : Reader) : reader.notice.1.chars = reader.chars := by
  unfold notice
  split <;> rfl

@[simp]
theorem line_notice (reader : Reader) : reader.notice.1.line = reader.line := by
  unfold notice
  split <;> rfl

@[simp]
theorem chars_take (reader : Reader) (cut : Cut) : (reader.take cut).1.chars = cut.rest :=
  chars_notice _

@[simp]
theorem chars_ofSource (source : Source) : (ofSource source).1.chars = source.text :=
  chars_notice _

theorem chars_skipBlanks (reader : Reader) :
    reader.skipBlanks.1.chars = reader.chars.dropWhile isBlank :=
  chars_take reader _

/-- A scan takes the piece after the blanks. -/
theorem chars_scan (reader : Reader) : reader.scan.2.chars = (next reader.chars).rest := by
  rw [next, ← chars_skipBlanks]
  exact chars_take _ _

theorem item_scan (reader : Reader) : reader.scan.1.token.item = (next reader.chars).item := by
  rw [next, ← chars_skipBlanks]
  rfl

theorem category_scan (reader : Reader) :
    reader.scan.1.token.category = (next reader.chars).category :=
  congrArg Item.category reader.item_scan

theorem script_scan (reader : Reader) : reader.scan.1.script = scriptOf (next reader.chars) := by
  rw [next, ← chars_skipBlanks]
  rfl

theorem spacing_scan (reader : Reader) : reader.scan.1.spacing? = (next reader.chars).spacing? := by
  rw [next, ← chars_skipBlanks]
  rfl

/-- What a reader finds is what its text consists of. -/
theorem reads_of_itemsWithin {limit : Nat} {reader : Reader} {items : List Item}
    (found : reader.itemsWithin limit = some items) :
    ∃ closed, Reads reader.chars items closed := by
  induction limit generalizing reader items with
  | zero => contradiction
  | succ limit ih =>
    simp only [itemsWithin, category_scan, item_scan] at found
    split at found
    · rename_i last
      obtain rfl : [] = items := by simpa using found
      exact ⟨true, Reads.ending last⟩
    · rename_i comment
      obtain ⟨closed, later⟩ := ih found
      rw [chars_scan] at later
      exact ⟨_, Reads.comment comment later⟩
    · rename_i notEnd noComment
      obtain ⟨others, inner, rfl⟩ := Option.map_eq_some_iff.mp found
      obtain ⟨closed, later⟩ := ih inner
      rw [chars_scan] at later
      exact ⟨_, Reads.item notEnd noComment later⟩

/-- A reader finds what its text consists of. -/
theorem itemsWithin_of_reads {text : List Char} {items : List Item} {closed : Bool}
    (reads : Reads text items closed) {limit : Nat} (enough : text.length < limit)
    {reader : Reader} (here : reader.chars = text) : reader.itemsWithin limit = some items := by
  induction reads generalizing limit reader with
  | ending category =>
    subst here
    cases limit with
    | zero => contradiction
    | succ limit => simp [itemsWithin, category_scan, category]
  | comment category later ih =>
    subst here
    cases limit with
    | zero => contradiction
    | succ limit =>
      have shorter := length_rest_next_lt (Reads.comment category later).free (by simp [category])
      have fits : (next reader.chars).rest.length < limit := by omega
      have found := ih fits reader.chars_scan
      simpa [itemsWithin, category_scan, category] using found
  | item notEnd noComment later ih =>
    subst here
    cases limit with
    | zero => contradiction
    | succ limit =>
      have shorter := length_rest_next_lt (Reads.item notEnd noComment later).free notEnd
      have fits : (next reader.chars).rest.length < limit := by omega
      have found := ih fits reader.chars_scan
      simp only [itemsWithin, category_scan, item_scan]
      rw [found]
      rfl

theorem items?_eq_some_iff {reader : Reader} {items : List Item} :
    reader.items? = some items ↔ ∃ closed, Reads reader.chars items closed := by
  constructor
  · exact reads_of_itemsWithin
  · rintro ⟨closed, reads⟩
    exact itemsWithin_of_reads reads (Nat.lt_succ_self _) rfl

end Reader

namespace Source

/-- The items of a source are what its text consists of. -/
theorem items?_eq_some_iff {source : Source} {items : List Item} :
    source.items? = some items ↔ ∃ closed, Reads source.text items closed := by
  rw [items?, Reader.items?_eq_some_iff, Reader.chars_ofSource]

/-- A source without items is one whose text does not consist of any. -/
theorem items?_eq_none_iff {source : Source} :
    source.items? = none ↔ ∀ items closed, ¬ Reads source.text items closed := by
  constructor
  · intro missing items closed reads
    rw [items?_eq_some_iff.mpr ⟨closed, reads⟩] at missing
    contradiction
  · intro none_reads
    cases found : source.items? with
    | none => rfl
    | some items =>
      obtain ⟨closed, reads⟩ := items?_eq_some_iff.mp found
      exact absurd reads (none_reads items closed)

end Source

/-- A text at whose pieces no barrier is met consists of items. -/
theorem Reads.of_free {reader : Reader}
    (free : ∀ count, ¬ AtBarrier ((reader.afterPieces count).chars.dropWhile isBlank)) :
    ∃ items closed, Reads reader.chars items closed := by
  induction length : reader.chars.length using Nat.strong_induction_on generalizing reader with
  | _ size ih =>
    subst length
    by_cases last : (next reader.chars).category = .endOfFile
    · exact ⟨[], true, Reads.ending last⟩
    · have shorter := length_rest_next_lt (free 0) last
      rw [← Reader.chars_scan] at shorter
      obtain ⟨items, closed, later⟩ := ih _ shorter (fun count => free (count + 1)) rfl
      rw [Reader.chars_scan] at later
      by_cases comment : (next reader.chars).category = .comment
      · exact ⟨items, _, Reads.comment comment later⟩
      · exact ⟨_, _, Reads.item last comment later⟩

/-- What follows the first piece consists of items too. -/
theorem Reads.rest {text : List Char} {items : List Item} {closed : Bool}
    (reads : Reads text items closed) :
    ∃ otherItems otherClosed, Reads (next text).rest otherItems otherClosed := by
  cases reads with
  | ending category =>
    rw [next_of_dropWhile_eq_nil (category_next_eq_endOfFile_iff.mp category)]
    exact ⟨[], true, Reads.ending rfl⟩
  | comment _ later => exact ⟨_, _, later⟩
  | item _ _ later => exact ⟨_, _, later⟩

theorem Reads.afterPieces {reader : Reader} {items : List Item} {closed : Bool}
    (reads : Reads reader.chars items closed) (count : Nat) :
    ∃ otherItems otherClosed, Reads (reader.afterPieces count).chars otherItems otherClosed := by
  induction count generalizing reader items closed with
  | zero => exact ⟨items, closed, reads⟩
  | succ count ih =>
    obtain ⟨otherItems, otherClosed, later⟩ := reads.rest
    rw [← Reader.chars_scan] at later
    exact ih later

/-- A source has items exactly if its reader never stands at a barrier. -/
theorem Source.isSome_items?_iff (source : Source) :
    source.items?.isSome ↔ source.ReadsFreely := by
  constructor
  · intro some_items count
    obtain ⟨items, found⟩ := Option.isSome_iff_exists.mp some_items
    obtain ⟨closed, reads⟩ := Reader.reads_of_itemsWithin found
    obtain ⟨otherItems, otherClosed, later⟩ := reads.afterPieces count
    exact later.free
  · intro free
    obtain ⟨items, closed, reads⟩ := Reads.of_free free
    rw [Source.items?, Reader.items?_eq_some_iff.mpr ⟨closed, reads⟩]
    rfl

end CListing
