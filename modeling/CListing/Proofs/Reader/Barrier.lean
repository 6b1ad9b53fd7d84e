import CListing.Proofs.Reader.ItemFeed
import CListing.Proofs.Reader.Requests

/-!
# Where reading ends

A reader that is asked for tokens again and again comes to the end of its text or to a barrier. Each
token before that takes up a character, so there are no more of them than characters. The end is
fetched for ever, and so is the empty word at a barrier, from which the reader does not move.
-/

namespace CListing

open Unicode Scan

namespace Reader

/-- The reader past the blanks, comments and directives before the next token; it passes over at
most as many of them as `credit` has characters. -/
def toTokenWithin : List Char → Reader → Reader
  | [], reader => reader.skipBlanks.1
  | _ :: credit, reader =>
    if reader.scan.1.token.category.isPassedOver then toTokenWithin credit reader.scan.2
    else reader.skipBlanks.1

/-- The reader at the first character of the next token, or at the end of the text. -/
def toToken (reader : Reader) : Reader :=
  toTokenWithin reader.chars reader

/-- The scan of the next token begins at a barrier. -/
def MeetsBarrier (reader : Reader) : Prop :=
  AtBarrier reader.toToken.chars

instance (reader : Reader) : Decidable reader.MeetsBarrier :=
  inferInstanceAs (Decidable (AtBarrier _))

/-! ## The place of a token -/

theorem chars_toTokenWithin {credit : List Char} {reader : Reader}
    (enough : reader.chars.length ≤ credit.length) :
    reader.fetch.1.token.item = (ofText (toTokenWithin credit reader).chars).item ∧
      reader.fetch.2.chars = (ofText (toTokenWithin credit reader).chars).rest ∧
      (ofText (toTokenWithin credit reader).chars).category.isPassedOver = false := by
  have here {reader : Reader} (counts : (next reader.chars).category.isPassedOver = false) :
      reader.fetch.1.token.item = (ofText reader.skipBlanks.1.chars).item ∧
        reader.fetch.2.chars = (ofText reader.skipBlanks.1.chars).rest ∧
        (ofText reader.skipBlanks.1.chars).category.isPassedOver = false := by
    rw [fetch_of_counts counts, chars_skipBlanks]
    exact ⟨reader.item_scan, reader.chars_scan, counts⟩
  induction credit generalizing reader with
  | nil =>
    have empty : reader.chars = [] := List.eq_nil_of_length_eq_zero (Nat.le_zero.mp enough)
    apply here
    rw [empty]
    rfl
  | cons _ credit ih =>
    rw [toTokenWithin, category_scan]
    split
    · rename_i passed
      have shorter := length_rest_next_lt_of_isPassedOver passed
      rw [← chars_scan] at shorter
      rw [List.length_cons] at enough
      rw [fetch_of_isPassedOver passed]
      exact ih (by omega)
    · rename_i counts
      exact here (by simpa using counts)

theorem toTokenWithin_of_counts {credit : List Char} {reader : Reader}
    (counts : (next reader.chars).category.isPassedOver = false) :
    toTokenWithin credit reader = reader.skipBlanks.1 := by
  rw [← category_scan] at counts
  cases credit with
  | nil => rfl
  | cons _ credit => rw [toTokenWithin, if_neg (by simp [counts])]

/-- The token that is fetched is the piece at its place. -/
theorem item_fetch (reader : Reader) :
    reader.fetch.1.token.item = (ofText reader.toToken.chars).item :=
  (chars_toTokenWithin (Nat.le_refl _)).1

theorem category_fetch (reader : Reader) :
    reader.fetch.1.token.category = (ofText reader.toToken.chars).category :=
  congrArg Item.category reader.item_fetch

theorem lexeme_fetch (reader : Reader) :
    reader.fetch.1.token.lexeme = (ofText reader.toToken.chars).lexeme :=
  congrArg Item.lexeme reader.item_fetch

theorem chars_fetch (reader : Reader) :
    reader.fetch.2.chars = (ofText reader.toToken.chars).rest :=
  (chars_toTokenWithin (Nat.le_refl _)).2.1

theorem isPassedOver_toToken (reader : Reader) :
    (ofText reader.toToken.chars).category.isPassedOver = false :=
  (chars_toTokenWithin (Nat.le_refl _)).2.2

/-- A piece that is the end was cut from no text. -/
theorem toToken_eq_nil {reader : Reader} (last : reader.fetch.1.token.category = .endOfFile) :
    reader.toToken.chars = [] := by
  rw [category_fetch] at last
  have found := head reader.toToken.chars
  generalize reader.toToken.chars = chars at last found
  cases found with
  | ending => rfl
  | comment _ category =>
    rw [last] at category
    contradiction
  | directive => contradiction
  | token _ _ token =>
    have category := token.category
    rw [last] at category
    contradiction

/-- The lexeme of a token is all that it takes up. -/
theorem lexeme_toToken {reader : Reader} (notEnd : reader.fetch.1.token.category ≠ .endOfFile) :
    reader.fetch.1.token.lexeme = (ofText reader.toToken.chars).extent := by
  have counts := reader.isPassedOver_toToken
  rw [category_fetch] at notEnd
  rw [lexeme_fetch]
  have found := head reader.toToken.chars
  generalize reader.toToken.chars = chars at notEnd counts found
  generalize ofText chars = scan at notEnd counts found
  cases found with
  | ending => contradiction
  | comment _ category => simp [Category.isPassedOver, category] at counts
  | directive => contradiction
  | token _ _ token => exact token.lexeme

/-- A token that is not met at a barrier has a text. -/
theorem lexeme_fetch_ne_nil {reader : Reader} (free : ¬ reader.MeetsBarrier)
    (notEnd : reader.fetch.1.token.category ≠ .endOfFile) :
    reader.fetch.1.token.lexeme ≠ [] := by
  rw [lexeme_toToken notEnd]
  rw [category_fetch] at notEnd
  rw [MeetsBarrier] at free
  generalize reader.toToken.chars = chars at free notEnd
  cases chars with
  | nil => contradiction
  | cons c rest => exact extent_ne_nil free

/-- The token at a barrier is an empty word. -/
theorem token_of_meetsBarrier {reader : Reader} (meets : reader.MeetsBarrier) :
    reader.fetch.1.token.category = .upperCaseIdentifier ∧ reader.fetch.1.token.lexeme = [] := by
  obtain ⟨word, nothing⟩ := ofText_of_atBarrier meets
  have category := reader.category_fetch.trans word
  exact ⟨category, (lexeme_toToken (by simp [category])).trans nothing⟩

theorem length_toTokenWithin_le (credit : List Char) (reader : Reader) :
    (toTokenWithin credit reader).chars.length ≤ reader.chars.length := by
  have blanks (reader : Reader) : reader.skipBlanks.1.chars.length ≤ reader.chars.length := by
    rw [chars_skipBlanks]
    exact (List.dropWhile_suffix isBlank).length_le
  induction credit generalizing reader with
  | nil => exact blanks reader
  | cons _ credit ih =>
    rw [toTokenWithin]
    split
    · have shorter := length_rest_next_le reader.chars
      rw [← chars_scan] at shorter
      exact Nat.le_trans (ih reader.scan.2) shorter
    · exact blanks reader

/-- A token that is neither the end nor met at a barrier leaves less text. -/
theorem length_fetch_lt {reader : Reader} (free : ¬ reader.MeetsBarrier)
    (notEnd : reader.fetch.1.token.category ≠ .endOfFile) :
    reader.fetch.2.chars.length < reader.chars.length := by
  have taken := List.length_pos_iff.mpr (lexeme_fetch_ne_nil free notEnd)
  rw [lexeme_toToken notEnd] at taken
  have whole := congrArg List.length (text_ofText reader.toToken.chars)
  have within : reader.toToken.chars.length ≤ reader.chars.length :=
    length_toTokenWithin_le reader.chars reader
  rw [Scan.text, List.length_append] at whole
  rw [chars_fetch]
  omega

/-! ## Staying at the end and at a barrier -/

/-- Behind the end there is only the end. -/
theorem category_fetch_of_nil {reader : Reader} (empty : reader.chars = []) :
    reader.fetch.1.token.category = .endOfFile := by
  have none_left := length_toTokenWithin_le reader.chars reader
  rw [show (toTokenWithin reader.chars reader) = reader.toToken from rfl, empty] at none_left
  rw [category_fetch, List.eq_nil_of_length_eq_zero (Nat.le_zero.mp none_left)]
  rfl

/-- The note about the end of the source was made if it was to be made here. -/
def HasNoticed (reader : Reader) : Prop :=
  reader.notice = (reader, [])

theorem hasNoticed_notice (reader : Reader) : reader.notice.1.HasNoticed := by
  obtain ⟨chars, line, fault⟩ := reader
  rcases chars with _ | ⟨c, _ | ⟨d, rest⟩⟩ <;> rfl

theorem hasNoticed_fetchWithin (credit : List Char) (reader : Reader) :
    (fetchWithin credit reader).2.HasNoticed := by
  induction credit generalizing reader with
  | nil => exact hasNoticed_notice _
  | cons _ credit ih =>
    simp only [fetchWithin]
    split
    · exact ih _
    · exact hasNoticed_notice _

theorem hasNoticed_fetch (reader : Reader) : reader.fetch.2.HasNoticed :=
  hasNoticed_fetchWithin reader.chars reader

theorem dropWhile_toTokenWithin (credit : List Char) (reader : Reader) :
    (toTokenWithin credit reader).chars.dropWhile isBlank =
      (toTokenWithin credit reader).chars := by
  have blanks (reader : Reader) :
      reader.skipBlanks.1.chars.dropWhile isBlank = reader.skipBlanks.1.chars := by
    rw [chars_skipBlanks, List.dropWhile_idempotent]
  induction credit generalizing reader with
  | nil => exact blanks reader
  | cons _ credit ih =>
    rw [toTokenWithin]
    split
    · exact ih reader.scan.2
    · exact blanks reader

/-- A reader that takes nothing stays where it is. -/
theorem HasNoticed.take {reader : Reader} (noticed : reader.HasNoticed) :
    reader.take { extent := [], rest := reader.chars } = (reader, []) :=
  noticed

/-- At a barrier an empty word is fetched again and again. -/
structure Stuck (reader : Reader) : Prop where
  fetch : reader.fetch.2 = reader
  commands : reader.fetch.1.commands = []
  meets : reader.MeetsBarrier

theorem stuck_of_atBarrier {reader : Reader} (noticed : reader.HasNoticed)
    (atToken : reader.chars.dropWhile isBlank = reader.chars) (barrier : AtBarrier reader.chars) :
    reader.Stuck := by
  obtain ⟨word, nothing⟩ := ofText_of_atBarrier barrier
  have blanks : reader.skipBlanks = (reader, []) := by
    have none_before : reader.chars.takeWhile isBlank = [] := by
      have whole := @List.takeWhile_append_dropWhile _ isBlank reader.chars
      rw [atToken] at whole
      exact List.append_left_eq_self.mp whole
    rw [skipBlanks, Cut.span, none_before, atToken]
    exact noticed.take
  have piece : next reader.chars = ofText reader.chars := by rw [next, atToken]
  have counts : (next reader.chars).category.isPassedOver = false := by
    rw [piece, word]
    rfl
  have rest := rest_of_atBarrier barrier
  refine ⟨?_, ?_, ?_⟩
  · rw [fetch_of_counts counts, scan, blanks]
    simp only [nothing, rest, noticed.take]
  · rw [fetch_of_counts counts, Fetch.commands, script_scan, category_scan, scriptOf, piece, word]
    rfl
  · rwa [MeetsBarrier, toToken, toTokenWithin_of_counts counts, blanks]

/-- Once at a barrier, the reader is there for ever. -/
theorem MeetsBarrier.stuck {reader : Reader} (meets : reader.MeetsBarrier) :
    reader.fetch.2.Stuck ∧ reader.fetch.2.chars = reader.toToken.chars := by
  have here : reader.fetch.2.chars = reader.toToken.chars :=
    (chars_fetch reader).trans (rest_of_atBarrier meets)
  refine ⟨stuck_of_atBarrier reader.hasNoticed_fetch ?_ ?_, here⟩
  · rw [here]
    exact dropWhile_toTokenWithin reader.chars reader
  · rwa [here]

variable {reader : Reader} {count later : Nat}

theorem afterTokens_of_stuck (stuck : (reader.afterTokens count).Stuck) (behind : count ≤ later) :
    reader.afterTokens later = reader.afterTokens count := by
  induction behind with
  | refl => rfl
  | step _ ih => rw [afterTokens, ih, stuck.fetch]

theorem category_afterTokens_of_ending
    (last : (reader.afterTokens count).fetch.1.token.category = .endOfFile)
    (behind : count ≤ later) :
    (reader.afterTokens later).fetch.1.token.category = .endOfFile := by
  induction behind with
  | refl => exact last
  | step _ ih =>
    apply category_fetch_of_nil
    rw [afterTokens, chars_fetch, toToken_eq_nil ih]
    rfl

/-- A reader that never meets a barrier comes to the end within as many tokens as its text has
characters. -/
theorem exists_ending (free : ∀ count, ¬ (reader.afterTokens count).MeetsBarrier) :
    ∃ count ≤ reader.chars.length,
      (reader.afterTokens count).fetch.1.token.category = .endOfFile := by
  by_contra noEnd
  have spent (count : Nat) (within : count ≤ reader.chars.length + 1) :
      (reader.afterTokens count).chars.length + count ≤ reader.chars.length := by
    induction count with
    | zero => exact Nat.le_refl _
    | succ count ih =>
      have notEnd : (reader.afterTokens count).fetch.1.token.category ≠ .endOfFile :=
        fun last => noEnd ⟨count, by omega, last⟩
      have fewer := length_fetch_lt (free count) notEnd
      have before := ih (by omega)
      rw [afterTokens]
      omega
  have tooMany := spent (reader.chars.length + 1) (Nat.le_refl _)
  omega

end Reader

namespace Cursor

/-- The cursor before the first token of a reader. -/
def ofReader (reader : Reader) (traced : Bool) : Cursor Reader where
  source := reader
  traced := traced

section Calls

variable {σ : Type} [TokenSource σ]

/-- The cursor after so many calls of `next`. -/
def afterCalls (cursor : Cursor σ) : Nat → Cursor σ
  | 0 => cursor
  | count + 1 => (cursor.afterCalls count).next.cursor

/-- What the next call after so many others brings about. -/
def call (cursor : Cursor σ) (count : Nat) : Outcome σ :=
  (cursor.afterCalls count).next

end Calls

/-- From the given call on, every call returns an empty word. All but the first one of them write
nothing and leave the reader where it is, and no call at all returns the end. -/
structure StuckFrom (cursor : Cursor Reader) (count : Nat) : Prop where
  category (later : Nat) (behind : count ≤ later) :
    (cursor.call later).cursor.current.category = .upperCaseIdentifier
  lexeme (later : Nat) (behind : count ≤ later) : (cursor.call later).cursor.current.lexeme = []
  script (later : Nat) (behind : count < later) : (cursor.call later).script = []
  source (later : Nat) (behind : count < later) :
    (cursor.call later).cursor.source = (cursor.call count).cursor.source
  endless (other : Nat) : (cursor.call other).cursor.current.category ≠ .endOfFile

theorem afterCalls_ofReader (reader : Reader) (traced : Bool) (count : Nat) :
    ((ofReader reader traced).afterCalls count).source = reader.afterTokens count ∧
      ((ofReader reader traced).afterCalls count).lookahead? = none := by
  induction count with
  | zero => exact ⟨rfl, rfl⟩
  | succ count ih =>
    obtain ⟨source, free⟩ := ih
    refine ⟨?_, lookahead?_next _⟩
    rw [afterCalls, next, free, source]
    rfl

/-- A call writes out the current token and what stands between it and the next one. -/
theorem call_ofReader (reader : Reader) (traced : Bool) (count : Nat) :
    ((ofReader reader traced).call count).cursor.source = reader.afterTokens (count + 1) ∧
      ((ofReader reader traced).call count).cursor.current =
        (reader.afterTokens count).fetch.1.token ∧
      ((ofReader reader traced).call count).script =
        ((ofReader reader traced).afterCalls count).release ++
          (reader.afterTokens count).fetch.1.commands := by
  obtain ⟨source, free⟩ := afterCalls_ofReader reader traced count
  rw [call, next, free, source]
  exact ⟨rfl, rfl, rfl⟩

theorem current_call (reader : Reader) (traced : Bool) (count : Nat) :
    ((ofReader reader traced).call count).cursor.current =
      (reader.afterTokens count).fetch.1.token :=
  (call_ofReader reader traced count).2.1

/-- The lexemes that a call writes out: the one of the current token, if it has one. -/
theorem appended_script_call (reader : Reader) (traced : Bool) (count : Nat) :
    appended ((ofReader reader traced).call count).script =
      [((ofReader reader traced).afterCalls count).current.lexeme].filter (· ≠ []) := by
  rw [(call_ofReader reader traced count).2.2, appended_append, appended_release,
    Reader.appended_commands_fetch, List.append_nil]

variable {reader : Reader} {count : Nat}

/-- A call whose scan meets a barrier returns an empty word, and so do all later ones. -/
theorem stuckFrom_of_meetsBarrier (meets : (reader.afterTokens count).MeetsBarrier)
    (traced : Bool) : (ofReader reader traced).StuckFrom count := by
  have stuck : (reader.afterTokens (count + 1)).Stuck := meets.stuck.1
  have stays {later : Nat} (behind : count < later) :
      reader.afterTokens later = reader.afterTokens (count + 1) :=
    Reader.afterTokens_of_stuck stuck behind
  have word {later : Nat} (behind : count ≤ later) :
      ((ofReader reader traced).call later).cursor.current.category = .upperCaseIdentifier ∧
        ((ofReader reader traced).call later).cursor.current.lexeme = [] := by
    rw [current_call]
    rcases Nat.lt_or_eq_of_le behind with after | rfl
    · rw [stays after]
      exact Reader.token_of_meetsBarrier stuck.meets
    · exact Reader.token_of_meetsBarrier meets
  refine ⟨fun later behind => (word behind).1, fun later behind => (word behind).2, ?_, ?_, ?_⟩
  · intro later behind
    obtain ⟨earlier, rfl⟩ := Nat.exists_eq_succ_of_ne_zero (Nat.ne_zero_of_lt behind)
    have empty := (word (Nat.le_of_lt_succ behind)).2
    have current : ((ofReader reader traced).afterCalls (earlier + 1)).current.lexeme = [] := empty
    rw [(call_ofReader reader traced _).2.2, release, current, stays behind, stuck.commands]
    rfl
  · intro later behind
    rw [(call_ofReader reader traced later).1, (call_ofReader reader traced count).1,
      stays (Nat.lt_succ_of_lt behind)]
  · intro other last
    rw [current_call] at last
    have after := Reader.category_afterTokens_of_ending last (Nat.le_max_left other count)
    have upper := (word (Nat.le_max_right other count)).1
    rw [current_call, after] at upper
    contradiction

/-- Calls return the end, within one more than there are characters and ever after, exactly if no
scan of a token begins at a barrier. A call whose scan does returns an empty word there, after it
has written out the token before; all later calls do the same, write nothing and stay at the
barrier, and the end is never returned. Every other token but the end has a text. -/
theorem calls_end_iff (reader : Reader) (traced : Bool) :
    ((∃ count ≤ reader.chars.length, ∀ later, count ≤ later →
        ((ofReader reader traced).call later).cursor.current.category = .endOfFile) ↔
      ∀ count, ¬ (reader.afterTokens count).MeetsBarrier) ∧
    (∀ count, (reader.afterTokens count).MeetsBarrier →
      (ofReader reader traced).StuckFrom count ∧
        ((ofReader reader traced).call count).cursor.source.chars =
          (reader.afterTokens count).toToken.chars ∧
        appended ((ofReader reader traced).call count).script =
          [((ofReader reader traced).afterCalls count).current.lexeme].filter (· ≠ [])) ∧
    ∀ count, ¬ (reader.afterTokens count).MeetsBarrier →
      ((ofReader reader traced).call count).cursor.current.category ≠ .endOfFile →
        ((ofReader reader traced).call count).cursor.current.lexeme ≠ [] := by
  refine ⟨⟨?_, ?_⟩, ?_, ?_⟩
  · rintro ⟨count, _, ends⟩ other meets
    exact (stuckFrom_of_meetsBarrier meets traced).endless count (ends count (Nat.le_refl _))
  · intro free
    obtain ⟨count, within, last⟩ := Reader.exists_ending free
    refine ⟨count, within, fun later behind => ?_⟩
    rw [current_call]
    exact Reader.category_afterTokens_of_ending last behind
  · intro count meets
    refine ⟨stuckFrom_of_meetsBarrier meets traced, ?_, appended_script_call reader traced count⟩
    rw [(call_ofReader reader traced count).1]
    exact meets.stuck.2
  · intro count free notEnd
    rw [current_call] at notEnd ⊢
    exact Reader.lexeme_fetch_ne_nil free notEnd

/-- The call that meets the barrier writes out the token before it. -/
theorem call_at_barrier_writes :
    let reader := (Reader.ofSource (Source.ofText "a\u24b6".toList)).1
    (reader.afterTokens 1).MeetsBarrier ∧
      ¬ ∀ later, 1 ≤ later → appended ((ofReader reader false).call later).script = [] := by
  intro reader
  refine ⟨by decide +kernel, fun silent => ?_⟩
  have written : appended ((ofReader reader false).call 1).script = [['a']] := by decide +kernel
  rw [silent 1 (Nat.le_refl _)] at written
  contradiction

end Cursor

end CListing
