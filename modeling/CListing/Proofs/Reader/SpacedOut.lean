import CListing.Proofs.Reader.Barrier
import CListing.Proofs.Reader.Supply

/-!
# Tokens spaced out

The tokens of a text whose end is reached may be written one after another with blanks between them:
reading this gives them back, with no comment and no directive among them. All but the last of them
have a spelling, and no spelling runs on into a blank. The last one may be a literal that lacks its
closing mark; nothing is behind it, in the text where it was found and in the new one.
-/

namespace CListing

open Unicode Scan

/-- The text consists of the given lexemes in their order, with blanks between them. -/
inductive SpacedOut : List (List Char) → List Char → Prop
  | nil : SpacedOut [] []
  | last (lexeme : List Char) : SpacedOut [lexeme] lexeme
  | cons {lexeme next text : List Char} {lexemes : List (List Char)} (gap : List Char)
      (nonempty : gap ≠ []) (blank : ∀ c ∈ gap, isBlank c = true)
      (later : SpacedOut (next :: lexemes) text) :
      SpacedOut (lexeme :: next :: lexemes) (lexeme ++ (gap ++ text))

namespace Reader

/-- What a way of reading yields up to the end of the text, if the end is reached within so many
steps. -/
def collectWithin (read : Reader → Fetch × Reader) : Nat → Reader → Option (List Item)
  | 0, _ => none
  | limit + 1, reader =>
    let (fetch, later) := read reader
    if fetch.token.category = .endOfFile then some []
    else (collectWithin read limit later).map (fetch.token.item :: ·)

/-- The tokens that are fetched up to the end of the text, if the end is reached. -/
def fetched? (reader : Reader) : Option (List Item) :=
  collectWithin fetch (reader.chars.length + 1) reader

/-- All pieces that are scanned up to the end of the text, comments and directives among them. -/
def scanned? (reader : Reader) : Option (List Item) :=
  collectWithin scan (reader.chars.length + 1) reader

end Reader

/-- Each of the tokens but the last has a spelling, and the last is what its lexeme reads as. -/
inductive Sturdy : List Item → Prop
  | nil : Sturdy []
  | last {token : Item} (isToken : token.category.isToken = true)
      (item : (next token.lexeme).item = token) (rest : (next token.lexeme).rest = []) :
      Sturdy [token]
  | cons {token : Item} {tokens : List Item} (spelling : Spelling token.category token.lexeme)
      (later : Sturdy tokens) : Sturdy (token :: tokens)

namespace Reader

/-! ## Reaching the end -/

theorem afterTokens_fetch (reader : Reader) (count : Nat) :
    reader.fetch.2.afterTokens count = reader.afterTokens (count + 1) := by
  induction count with
  | zero => rfl
  | succ count ih => rw [afterTokens, ih, ← afterTokens]

theorem exists_ending_of_collectWithin {limit : Nat} {reader : Reader}
    (found : (collectWithin fetch limit reader).isSome) :
    ∃ count, (reader.afterTokens count).fetch.1.token.category = .endOfFile := by
  induction limit generalizing reader with
  | zero => contradiction
  | succ limit ih =>
    simp only [collectWithin] at found
    split at found
    · rename_i last
      exact ⟨0, last⟩
    · rw [Option.isSome_map] at found
      obtain ⟨count, last⟩ := ih found
      rw [afterTokens_fetch] at last
      exact ⟨count + 1, last⟩

theorem isSome_collectWithin {count : Nat} {reader : Reader}
    (last : (reader.afterTokens count).fetch.1.token.category = .endOfFile) {limit : Nat}
    (within : count < limit) : (collectWithin fetch limit reader).isSome := by
  obtain ⟨limit, rfl⟩ := Nat.exists_eq_add_of_lt within
  induction count generalizing reader with
  | zero =>
    rw [afterTokens] at last
    simp [collectWithin, last]
  | succ count ih =>
    rw [← afterTokens_fetch] at last
    have inner := ih last (by omega)
    rw [show count + 1 + limit + 1 = count + limit + 1 + 1 by omega]
    simp only [collectWithin]
    split
    · rfl
    · rwa [Option.isSome_map]

/-- There are fetched tokens exactly if the end is fetched sometime. -/
theorem isSome_fetched?_iff (reader : Reader) :
    reader.fetched?.isSome ↔
      ∃ count, (reader.afterTokens count).fetch.1.token.category = .endOfFile := by
  constructor
  · exact exists_ending_of_collectWithin
  · rintro ⟨count, last⟩
    have free (other : Nat) : ¬ (reader.afterTokens other).MeetsBarrier := by
      intro meets
      apply (Cursor.stuckFrom_of_meetsBarrier meets false).endless count
      rwa [Cursor.current_call]
    obtain ⟨first, within, ends⟩ := exists_ending free
    exact isSome_collectWithin ends (Nat.lt_succ_of_le within)

/-! ## The tokens of a text are sturdy -/

theorem collectWithin_of_stuck {reader : Reader} (stuck : reader.Stuck) (limit : Nat) :
    collectWithin fetch limit reader = none := by
  induction limit with
  | zero => rfl
  | succ limit ih =>
    have word := (token_of_meetsBarrier stuck.meets).1
    simp [collectWithin, word, stuck.fetch, ih]

/-- The end is not reached from a barrier. -/
theorem not_meetsBarrier_of_collectWithin {limit : Nat} {reader : Reader} {tokens : List Item}
    (found : collectWithin fetch limit reader.fetch.2 = some tokens) : ¬ reader.MeetsBarrier := by
  intro meets
  rw [collectWithin_of_stuck meets.stuck.1] at found
  contradiction

theorem next_toToken (reader : Reader) : next reader.toToken.chars = ofText reader.toToken.chars :=
  congrArg ofText (dropWhile_toTokenWithin reader.chars reader)

theorem isToken_fetch {reader : Reader} (notEnd : reader.fetch.1.token.category ≠ .endOfFile) :
    (ofText reader.toToken.chars).IsToken := by
  rw [category_fetch, ← next_toToken] at notEnd
  have counts := reader.isPassedOver_toToken
  rw [← next_toToken] at counts ⊢
  exact isToken_next notEnd counts

/-- A token with its closing mark has a spelling. -/
theorem spelling_fetch {reader : Reader} (free : ¬ reader.MeetsBarrier)
    (notEnd : reader.fetch.1.token.category ≠ .endOfFile)
    (closed : (ofText reader.toToken.chars).closed = true) :
    Spelling reader.fetch.1.token.category reader.fetch.1.token.lexeme := by
  have token := (isToken_fetch notEnd).category
  have ink := List.head?_dropWhile_not isBlank reader.toToken.chars
  rw [show reader.toToken.chars.dropWhile isBlank = reader.toToken.chars from
    dropWhile_toTokenWithin reader.chars reader] at ink
  rw [lexeme_toToken notEnd, category_fetch]
  rw [MeetsBarrier] at free
  generalize reader.toToken.chars = chars at free token ink closed
  cases chars with
  | nil => contradiction
  | cons c rest => exact spelling_extent free (by simpa using ink) token closed

/-- A token that lacks its closing mark is all that its lexeme reads as, and the last one. -/
theorem last_of_open {reader : Reader} (notEnd : reader.fetch.1.token.category ≠ .endOfFile)
    (isOpen : (ofText reader.toToken.chars).closed = false) :
    (next reader.fetch.1.token.lexeme).item = reader.fetch.1.token.item ∧
      (next reader.fetch.1.token.lexeme).rest = [] ∧ reader.fetch.2.chars = [] := by
  have noComment : (ofText reader.toToken.chars).category ≠ .comment := by
    intro comment
    have token := (isToken_fetch notEnd).category
    rw [comment] at token
    contradiction
  have rest := rest_of_open noComment isOpen
  have whole := text_ofText reader.toToken.chars
  rw [Scan.text, rest, List.append_nil] at whole
  rw [lexeme_toToken notEnd, whole, next_toToken, chars_fetch, item_fetch]
  exact ⟨rfl, rest, rest⟩

theorem sturdy_of_collectWithin {limit : Nat} {reader : Reader} {tokens : List Item}
    (found : collectWithin fetch limit reader = some tokens) : Sturdy tokens := by
  induction limit generalizing reader tokens with
  | zero => contradiction
  | succ limit ih =>
    simp only [collectWithin] at found
    split at found
    · obtain rfl : [] = tokens := by simpa using found
      exact Sturdy.nil
    · rename_i notEnd
      obtain ⟨others, inner, rfl⟩ := Option.map_eq_some_iff.mp found
      have later := ih inner
      cases closed : (ofText reader.toToken.chars).closed with
      | true =>
        exact Sturdy.cons
          (spelling_fetch (not_meetsBarrier_of_collectWithin inner) notEnd closed) later
      | false =>
        obtain ⟨item, rest, spent⟩ := last_of_open notEnd closed
        obtain rfl : others = [] := by
          cases limit with
          | zero => contradiction
          | succ limit => simpa [collectWithin, category_fetch_of_nil spent] using inner.symm
        have isToken := (isToken_fetch notEnd).category
        rw [← category_fetch] at isToken
        exact Sturdy.last isToken item rest

/-! ## Sturdy tokens are read back -/

/-- This way of reading scans every piece that is neither a comment nor a directive. -/
def ScansTokens (read : Reader → Fetch × Reader) : Prop :=
  ∀ reader, (next reader.chars).category.isPassedOver = false → read reader = reader.scan

theorem scansTokens_fetch : ScansTokens fetch :=
  fun _ => fetch_of_counts

theorem scansTokens_scan : ScansTokens scan :=
  fun _ _ => rfl

section ReadBack

variable {read : Reader → Fetch × Reader} {limit : Nat} {reader : Reader}

theorem collectWithin_of_ending (scans : ScansTokens read)
    (last : (next reader.chars).category = .endOfFile) :
    collectWithin read (limit + 1) reader = some [] := by
  have here := scans reader (by rw [last]; rfl)
  rw [← category_scan] at last
  simp [collectWithin, here, last]

theorem collectWithin_of_isToken (scans : ScansTokens read)
    (token : (next reader.chars).category.isToken = true) :
    collectWithin read (limit + 1) reader =
      (collectWithin read limit reader.scan.2).map ((next reader.chars).item :: ·) := by
  have here := scans reader (by revert token; cases (next reader.chars).category <;> decide)
  have notEnd : (next reader.chars).category ≠ .endOfFile := by
    intro last
    rw [last] at token
    contradiction
  rw [← category_scan] at notEnd
  simp [collectWithin, here, notEnd, item_scan]

theorem collectWithin_of_last (scans : ScansTokens read) {token : Item}
    (isToken : token.category.isToken = true)
    (item : (next reader.chars).item = token) (rest : (next reader.chars).rest = []) :
    collectWithin read (limit + 2) reader = some [token] := by
  subst item
  rw [collectWithin_of_isToken scans isToken, collectWithin_of_ending scans]
  · rfl
  · rw [chars_scan, rest]
    rfl

end ReadBack

end Reader

/-- A spelling before a text that it does not run on into is the next piece. -/
theorem Spelling.next_append {category : Category} {lexeme rest : List Char}
    (spelling : Spelling category lexeme) (apart : ReadsApart lexeme rest) :
    next (lexeme ++ rest) = ofToken category lexeme rest := by
  obtain ⟨nonempty, ink, _⟩ := spelling.ink_ends
  rw [next, ← spelling.ofText_append apart]
  cases lexeme with
  | nil => contradiction
  | cons c more => rw [List.cons_append, List.dropWhile_cons_of_neg (by simpa using ink)]

namespace Reader

theorem collectWithin_of_sturdy {read : Reader → Fetch × Reader} (scans : ScansTokens read)
    {tokens : List Item} (sturdy : Sturdy tokens) {text : List Char}
    (spaced : SpacedOut (tokens.map (·.lexeme)) text) {reader : Reader}
    (here : next reader.chars = next text) {limit : Nat} (enough : tokens.length < limit) :
    collectWithin read limit reader = some tokens := by
  induction sturdy generalizing text reader limit with
  | nil =>
    cases spaced
    obtain ⟨limit, rfl⟩ := Nat.exists_eq_add_of_lt enough
    exact collectWithin_of_ending scans (by rw [here]; rfl)
  | last isToken item rest =>
    cases spaced
    rw [← here] at item rest
    obtain ⟨limit, rfl⟩ := Nat.exists_eq_add_of_le enough
    rw [List.length_singleton, Nat.add_comm]
    exact collectWithin_of_last scans isToken item rest
  | @cons token tokens spelling later ih =>
    obtain ⟨limit, rfl⟩ := Nat.exists_eq_add_of_lt enough
    cases tokens with
    | nil =>
      cases spaced
      have piece := spelling.next_append (readsApart_nil token.lexeme)
      rw [List.append_nil, ← here] at piece
      rw [List.length_singleton, show 1 + limit + 1 = limit + 2 by omega]
      exact collectWithin_of_last scans spelling.isToken (by rw [piece]; rfl) (by rw [piece]; rfl)
    | cons second tokens =>
      cases spaced with
      | @cons _ _ text _ gap nonempty blank spacedLater =>
        have apart : ReadsApart token.lexeme (gap ++ text) := by
          cases gap with
          | nil => contradiction
          | cons c more => exact readsApart_cons_of_isBlank _ (blank c List.mem_cons_self) _
        have piece := spelling.next_append apart
        rw [← here] at piece
        have isToken : (next reader.chars).category.isToken = true := by
          rw [piece]
          exact spelling.isToken
        have behind : next reader.scan.2.chars = next text := by
          rw [chars_scan, piece]
          exact congrArg ofText (List.dropWhile_append_of_pos blank)
        have fits : (second :: tokens).length < (token :: second :: tokens).length + limit := by
          simp only [List.length_cons]
          omega
        rw [collectWithin_of_isToken scans isToken, ih spacedLater behind fits, piece]
        rfl

/-- Sturdy tokens have texts. -/
theorem length_le_of_spacedOut {tokens : List Item} (sturdy : Sturdy tokens) {text : List Char}
    (spaced : SpacedOut (tokens.map (·.lexeme)) text) : tokens.length ≤ text.length := by
  induction sturdy generalizing text with
  | nil => exact Nat.zero_le _
  | @last token isToken item _ =>
    cases spaced
    cases lexeme : token.lexeme with
    | nil =>
      rw [lexeme] at item
      rw [← item] at isToken
      contradiction
    | cons c more => exact Nat.succ_le_of_lt (by simp [lexeme])
  | @cons token tokens spelling later ih =>
    have taken := List.length_pos_iff.mpr spelling.ink_ends.1
    cases tokens with
    | nil =>
      cases spaced
      exact taken
    | cons second tokens =>
      cases spaced with
      | cons gap _ _ spacedLater =>
        have behind := ih spacedLater
        simp only [List.length_cons, List.length_append] at behind ⊢
        omega

/-- Reading undoes spacing out: the tokens that were fetched from a text up to its end are fetched
again from any text that consists of their lexemes with blanks between them, and there are no other
pieces in it. -/
theorem fetched?_of_spacedOut {reader other : Reader} {tokens : List Item}
    (found : reader.fetched? = some tokens)
    (spaced : SpacedOut (tokens.map (·.lexeme)) other.chars) :
    other.fetched? = some tokens ∧ other.scanned? = some tokens := by
  have sturdy := sturdy_of_collectWithin found
  have enough := Nat.lt_succ_of_le (length_le_of_spacedOut sturdy spaced)
  constructor
  · exact collectWithin_of_sturdy scansTokens_fetch sturdy spaced rfl enough
  · exact collectWithin_of_sturdy scansTokens_scan sturdy spaced rfl enough

/-- The comment and the directive are gone, `/` stays apart from `*`, and `L` from the last literal,
which lacks its quote and keeps its blank. -/
theorem fetched?_of_spacedOut_literal :
    let reader : Reader := { chars := "L\"a b\"1e+5\n#x\n+/**// *L 'q ".toList }
    let other : Reader := { chars := "L\"a b\"\t1e+5\n+\x0b/\u2003 *\rL 'q ".toList }
    let tokens : List Item :=
      [⟨.string, "L\"a b\"".toList⟩, ⟨.constant, "1e+5".toList⟩, ⟨.unaryOrBinary, ['+']⟩,
        ⟨.binary, ['/']⟩, ⟨.unaryOrBinary, ['*']⟩, ⟨.upperCaseIdentifier, ['L']⟩,
        ⟨.constant, "'q ".toList⟩]
    reader.fetched? = some tokens ∧ SpacedOut (tokens.map (·.lexeme)) other.chars ∧
      other.fetched? = some tokens ∧ other.scanned? = some tokens := by
  intro reader other tokens
  have found : reader.fetched? = some tokens := by decide +kernel
  have spaced : SpacedOut (tokens.map (·.lexeme)) other.chars := by
    have gap {blanks : List Char} (all : blanks.all isBlank = true) : ∀ c ∈ blanks, isBlank c :=
      List.all_eq_true.mp all
    refine .cons ['\t'] ?_ (gap ?_) <| .cons ['\n'] ?_ (gap ?_) <| .cons ['\x0b'] ?_ (gap ?_) <|
      .cons ['\u2003', ' '] ?_ (gap ?_) <| .cons ['\r'] ?_ (gap ?_) <| .cons [' '] ?_ (gap ?_) <|
        .last _
    all_goals decide +kernel
  exact ⟨found, spaced, fetched?_of_spacedOut found spaced⟩

end Reader

end CListing
