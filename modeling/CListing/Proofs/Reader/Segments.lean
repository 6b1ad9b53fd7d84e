import CListing.Proofs.Reader.SpacedOut

/-!
# Gaps and lexemes

A text whose end is reached is cut up completely: gaps and lexemes stand in it in turn, and every
character of it belongs to one of them. A gap consists of blanks, comments and directives, each of
which ends at a place that what follows it confirms. The lexemes are those of the tokens that are
fetched, and what a gap does to the listing is the work of its directives.
-/

namespace CListing

open Unicode Scan

/-- The text is a comment in front of `back`. A block comment ends at the first closing mark, or
with the text if there is none; a line comment ends before the first line feed. -/
inductive IsComment : List Char → List Char → Prop
  | block {body back : List Char} (first : ¬ ['*', '/'] <:+: body ++ ['*']) :
      IsComment ('/' :: '*' :: (body ++ ['*', '/'])) back
  | unclosed {body : List Char} (never : ¬ ['*', '/'] <:+: body) :
      IsComment ('/' :: '*' :: body) []
  | line {body back : List Char} (plain : '\n' ∉ body)
      (ends : back = [] ∨ ∃ more, back = '\n' :: more) : IsComment ('/' :: '/' :: body) back

/-- A part of a text that belongs to no token. -/
inductive Filler
  | blank (c : Char)
  | comment (text : List Char)
  /-- The lines as they stand in the text. -/
  | directive (lines : List (List Char))
deriving DecidableEq, Repr

namespace Filler

/-- The characters of a filler. -/
def text : Filler → List Char
  | blank c => [c]
  | comment text => text
  | directive lines => Text.joined '\n' lines

/-- What a filler does to the listing: a directive ends the pending line, and its lines are copied
without the blanks at their ends. -/
def commands : Filler → List Command
  | directive lines => .endLine false :: lines.map fun line => .directive (Text.trimEnd line)
  | _ => []

/-- The filler has its form, and it ends where it should in front of `back`. -/
inductive Fits : Filler → List Char → Prop
  | blank {c : Char} {back : List Char} (blank : isBlank c = true) : Fits (.blank c) back
  | comment {text back : List Char} (comment : IsComment text back) : Fits (.comment text) back
  | directive {lines : List (List Char)} {back : List Char} (extent : DirectiveExtent lines back) :
      Fits (.directive lines) back

end Filler

/-- What stands between two tokens. -/
abbrev Gap := List Filler

namespace Gap

/-- The characters of a gap. -/
def text (gap : Gap) : List Char :=
  gap.flatMap Filler.text

/-- What a gap does to the listing. -/
def commands (gap : Gap) : List Command :=
  gap.flatMap Filler.commands

/-- All fillers of the gap fit in front of what follows them in the gap and then in `back`. -/
def Fits : Gap → List Char → Prop
  | [], _ => True
  | filler :: gap, back => filler.Fits (text gap ++ back) ∧ Fits gap back

@[simp]
theorem text_cons (filler : Filler) (gap : Gap) : text (filler :: gap) = filler.text ++ gap.text :=
  List.flatMap_cons

@[simp]
theorem commands_cons (filler : Filler) (gap : Gap) :
    commands (filler :: gap) = filler.commands ++ gap.commands :=
  List.flatMap_cons

@[simp]
theorem text_append (first second : Gap) : text (first ++ second) = text first ++ text second :=
  List.flatMap_append

@[simp]
theorem commands_append (first second : Gap) :
    commands (first ++ second) = commands first ++ commands second :=
  List.flatMap_append

theorem Fits.append {first second : Gap} {back : List Char}
    (fits : Fits first (text second ++ back))
    (later : Fits second back) : Fits (first ++ second) back := by
  induction first with
  | nil => exact later
  | cons filler first ih =>
    obtain ⟨here, others⟩ := fits
    have together : text (first ++ second) ++ back = text first ++ (text second ++ back) := by
      rw [text_append, List.append_assoc]
    rw [← together] at here
    exact ⟨here, ih others⟩

/-- Blanks make a gap. -/
theorem ofBlanks {blanks : List Char} (blank : ∀ c ∈ blanks, isBlank c = true) (back : List Char) :
    text (blanks.map .blank) = blanks ∧ commands (blanks.map .blank) = [] ∧
      Fits (blanks.map .blank) back := by
  induction blanks with
  | nil => exact ⟨rfl, rfl, trivial⟩
  | cons c blanks ih =>
    obtain ⟨chars, silent, fits⟩ := ih fun d member => blank d (List.mem_cons_of_mem _ member)
    exact ⟨congrArg (c :: ·) chars, silent, Filler.Fits.blank (blank c List.mem_cons_self), fits⟩

end Gap

/-- A gap with the lexeme after it. -/
structure Segment where
  gap : Gap
  lexeme : List Char
deriving DecidableEq, Repr

/-- The text consists of the gaps and lexemes of the segments in their order, and of a last gap. -/
inductive Segmented : List Char → List Segment → Gap → Prop
  | ending {gap : Gap} (fits : gap.Fits []) : Segmented gap.text [] gap
  | segment {gap last : Gap} {lexeme text : List Char} {segments : List Segment}
      (fits : gap.Fits (lexeme ++ text)) (later : Segmented text segments last) :
      Segmented (gap.text ++ (lexeme ++ text)) ({ gap := gap, lexeme := lexeme } :: segments) last

/-! ## Where comments end -/

namespace Scan

/-- The rest of a block comment goes up to its first closing mark, or to the end of the text. -/
theorem commentTail_cases (text : List Char) :
    (∃ body, (commentTail text).extent = body ++ ['*', '/'] ∧
        ¬ ['*', '/'] <:+: body ++ ['*']) ∨
      (commentTail text).extent = text ∧ (commentTail text).rest = [] ∧
        ¬ ['*', '/'] <:+: text := by
  fun_induction commentTail text with
  | case1 => exact Or.inr ⟨rfl, rfl, by simp⟩
  | case2 rest => exact Or.inl ⟨[], rfl, by decide⟩
  | case3 c rest notMark ih =>
    have noMark {more : List Char} (begins : more <+: rest) : ¬ ['*', '/'] <+: c :: more := by
      intro mark
      obtain ⟨rfl, slash⟩ := List.cons_prefix_cons.mp mark
      obtain ⟨others, split⟩ := slash.trans begins
      exact notMark others rfl split.symm
    rcases ih with ⟨body, extent, first⟩ | ⟨extent, rest_nil, never⟩
    · have begins : body ++ ['*'] <+: rest := by
        have whole := text_commentTail rest
        rw [Cut.text, extent] at whole
        exact ⟨'/' :: (commentTail rest).rest, by simpa using whole⟩
      refine Or.inl ⟨c :: body, by rw [Cut.extent_push, extent, List.cons_append], ?_⟩
      rw [List.cons_append, List.infix_cons_iff, not_or]
      exact ⟨noMark begins, first⟩
    · refine Or.inr ⟨by rw [Cut.extent_push, extent], rest_nil, ?_⟩
      rw [List.infix_cons_iff, not_or]
      exact ⟨noMark List.prefix_rfl, never⟩

theorem isComment_blockComment (rest : List Char) :
    IsComment (blockComment ('/' :: '*' :: rest)).extent
      (blockComment ('/' :: '*' :: rest)).rest := by
  have extent : (blockComment ('/' :: '*' :: rest)).extent =
      '/' :: '*' :: (commentTail rest).extent := rfl
  have behind : (blockComment ('/' :: '*' :: rest)).rest = (commentTail rest).rest := rfl
  rw [extent, behind]
  rcases commentTail_cases rest with ⟨body, tail, first⟩ | ⟨tail, nothing, never⟩
  · rw [tail]
    exact IsComment.block first
  · rw [tail, nothing]
    exact IsComment.unclosed never

theorem isComment_lineComment (rest : List Char) :
    IsComment (lineComment ('/' :: '/' :: rest)).extent
      (lineComment ('/' :: '/' :: rest)).rest := by
  have extent : (lineComment ('/' :: '/' :: rest)).extent =
      '/' :: '/' :: rest.takeWhile (· ≠ '\n') := rfl
  have behind : (lineComment ('/' :: '/' :: rest)).rest = rest.dropWhile (· ≠ '\n') := rfl
  rw [extent, behind]
  apply IsComment.line
  · intro feed
    simpa using List.all_eq_true.mp List.all_takeWhile '\n' feed
  · have stop := List.head?_dropWhile_not (· ≠ '\n') rest
    generalize rest.dropWhile (· ≠ '\n') = back at stop ⊢
    cases back with
    | nil => exact Or.inl rfl
    | cons c more =>
      obtain rfl : c = '\n' := by simpa using stop
      exact Or.inr ⟨more, rfl⟩

theorem isComment_ofText {text : List Char} (category : (ofText text).category = .comment) :
    IsComment (ofText text).extent (ofText text).rest := by
  obtain ⟨rest, rfl | rfl⟩ := exists_of_opensComment (opensComment_of_category category)
  · rw [ofText_blockComment]
    exact isComment_blockComment rest
  · rw [ofText_lineComment]
    exact isComment_lineComment rest

/-- A piece that is passed over is a filler. -/
theorem exists_filler {text : List Char} (passed : (ofText text).category.isPassedOver = true) :
    ∃ filler : Filler, filler.text = (ofText text).extent ∧ filler.Fits (ofText text).rest ∧
      filler.commands = Reader.scriptOf (ofText text) := by
  rw [Category.isPassedOver, Bool.or_eq_true, decide_eq_true_iff, decide_eq_true_iff] at passed
  rcases passed with comment | category
  · refine ⟨.comment (ofText text).extent, rfl, Filler.Fits.comment (isComment_ofText comment), ?_⟩
    rw [Reader.scriptOf, comment]
    rfl
  · obtain ⟨rest, rfl, cut⟩ := exists_of_category_directive category
    obtain ⟨lines, split, extent, trimmed⟩ := exists_extent_directive rest
    refine ⟨.directive lines, ?_, ?_, ?_⟩
    · rw [cut]
      exact List.append_cancel_right (split.symm.trans (text_directive ('#' :: rest)).symm)
    · rw [cut]
      exact Filler.Fits.directive extent
    · rw [Reader.scriptOf, if_pos category, cut, trimmed, List.map_map]
      rfl

end Scan

/-! ## The gap before a token -/

namespace Reader

/-- Any two credits that cover the text lead to the same place. -/
theorem toTokenWithin_congr {first second : List Char} {reader : Reader}
    (enough : reader.chars.length ≤ first.length)
    (otherEnough : reader.chars.length ≤ second.length) :
    toTokenWithin first reader = toTokenWithin second reader := by
  induction first generalizing second reader with
  | nil =>
    have counts : (next reader.chars).category.isPassedOver = false := by
      rw [List.eq_nil_of_length_eq_zero (Nat.le_zero.mp enough)]
      rfl
    rw [toTokenWithin_of_counts counts, toTokenWithin_of_counts counts]
  | cons _ first ih =>
    cases passed : (next reader.chars).category.isPassedOver with
    | false => rw [toTokenWithin_of_counts passed, toTokenWithin_of_counts passed]
    | true =>
      have shorter := length_rest_next_lt_of_isPassedOver passed
      rw [← chars_scan] at shorter
      rw [← category_scan] at passed
      cases second with
      | nil => simp_all
      | cons _ second =>
        rw [List.length_cons] at enough otherEnough
        rw [toTokenWithin, toTokenWithin, if_pos passed, if_pos passed]
        exact ih (by omega) (by omega)

theorem toToken_of_counts {reader : Reader}
    (counts : (next reader.chars).category.isPassedOver = false) :
    reader.toToken = reader.skipBlanks.1 :=
  toTokenWithin_of_counts counts

/-- The next token stands behind a piece that is passed over. -/
theorem toToken_of_isPassedOver {reader : Reader}
    (passed : (next reader.chars).category.isPassedOver = true) :
    reader.toToken = reader.scan.2.toToken := by
  have shorter := length_rest_next_lt_of_isPassedOver passed
  rw [← chars_scan] at shorter
  rw [← category_scan] at passed
  unfold toToken
  cases chars : reader.chars with
  | nil => simp [chars] at shorter
  | cons c rest =>
    rw [chars, List.length_cons] at shorter
    rw [toTokenWithin, if_pos passed]
    exact toTokenWithin_congr (by omega) (Nat.le_refl _)

/-- What holds in front of a token holds in front of all that is passed over before it. -/
theorem fetch_induction {motive : Reader → Prop}
    (counts : ∀ reader : Reader, (next reader.chars).category.isPassedOver = false → motive reader)
    (passed : ∀ reader : Reader, (next reader.chars).category.isPassedOver = true →
      motive reader.scan.2 → motive reader) (reader : Reader) : motive reader := by
  induction length : reader.chars.length using Nat.strongRecOn generalizing reader with
  | _ size ih =>
    subst length
    cases piece : (next reader.chars).category.isPassedOver with
    | false => exact counts reader piece
    | true =>
      have shorter := length_rest_next_lt_of_isPassedOver piece
      rw [← chars_scan] at shorter
      exact passed reader piece (ih _ shorter reader.scan.2 rfl)

/-- Between the reader and the next token there is a gap, and its directives come with the token. -/
theorem exists_gap (reader : Reader) :
    ∃ gap : Gap, reader.chars = gap.text ++ reader.toToken.chars ∧ gap.Fits reader.toToken.chars ∧
      reader.fetch.1.script = gap.commands := by
  have whole (reader : Reader) :
      reader.chars.takeWhile isBlank ++ reader.chars.dropWhile isBlank = reader.chars :=
    List.takeWhile_append_dropWhile
  have blanks (reader : Reader) :=
    Gap.ofBlanks (List.all_eq_true.mp (List.all_takeWhile (p := isBlank) (l := reader.chars)))
      (reader.chars.dropWhile isBlank)
  induction reader using fetch_induction with
  | counts reader counts =>
    obtain ⟨chars, silent, fits⟩ := blanks reader
    have noDirective : (next reader.chars).category ≠ .directive := by
      intro directive
      rw [directive] at counts
      contradiction
    rw [toToken_of_counts counts, chars_skipBlanks, fetch_of_counts counts, script_scan]
    refine ⟨_, by rw [chars, whole], fits, ?_⟩
    rw [silent, scriptOf, if_neg noDirective]
  | passed reader passed ih =>
    obtain ⟨gap, later, gapFits, gapScript⟩ := ih
    obtain ⟨filler, extent, fillerFits, script⟩ := exists_filler passed
    have piece : reader.chars.dropWhile isBlank =
        filler.text ++ (gap.text ++ reader.scan.2.toToken.chars) := by
      rw [extent, ← later, chars_scan]
      exact (text_ofText _).symm
    obtain ⟨chars, silent, fits⟩ := blanks reader
    rw [toToken_of_isPassedOver passed, fetch_of_isPassedOver passed, Fetch.after, script_scan,
      gapScript]
    refine ⟨(reader.chars.takeWhile isBlank).map .blank ++ filler :: gap, ?_, ?_, ?_⟩
    · rw [Gap.text_append, Gap.text_cons, chars, List.append_assoc, List.append_assoc, ← piece,
        whole]
    · refine Gap.Fits.append ?_ ⟨?_, gapFits⟩
      · rwa [Gap.text_cons, List.append_assoc, ← piece]
      · rw [← later, chars_scan]
        exact fillerFits
    · rw [Gap.commands_append, Gap.commands_cons, silent, script]
      rfl

/-- The lexeme of the next token stands behind the gap. -/
theorem chars_toToken (reader : Reader) :
    reader.toToken.chars = reader.fetch.1.token.lexeme ++ reader.fetch.2.chars := by
  by_cases last : reader.fetch.1.token.category = .endOfFile
  · rw [chars_fetch, lexeme_fetch, toToken_eq_nil last]
    rfl
  · rw [chars_fetch, lexeme_toToken last]
    exact (text_ofText _).symm

/-- If the end is the token after the given ones, the text consists of gaps and their lexemes, and
each fetch does to the listing what the gap before its token does. -/
theorem exists_segmented {reader : Reader} {count : Nat}
    (last : (reader.afterTokens count).fetch.1.token.category = .endOfFile)
    (before : ∀ earlier < count,
      (reader.afterTokens earlier).fetch.1.token.category ≠ .endOfFile) :
    ∃ segments gap, Segmented reader.chars segments gap ∧ segments.length = count ∧
      (∀ place segment, segments[place]? = some segment →
        (reader.afterTokens place).fetch.1.token.lexeme = segment.lexeme ∧
          (reader.afterTokens place).fetch.1.commands = segment.gap.commands) ∧
      (reader.afterTokens count).fetch.1.commands = gap.commands ++ [.endLine false] := by
  induction count generalizing reader with
  | zero =>
    obtain ⟨gap, split, fits, script⟩ := reader.exists_gap
    rw [afterTokens] at last ⊢
    rw [toToken_eq_nil last] at split fits
    rw [List.append_nil] at split
    refine ⟨[], gap, by rw [split]; exact Segmented.ending fits, rfl, by simp, ?_⟩
    rw [Fetch.commands, script, if_pos last]
  | succ count ih =>
    obtain ⟨gap, split, fits, script⟩ := reader.exists_gap
    rw [chars_toToken] at split fits
    have notEnd : reader.fetch.1.token.category ≠ .endOfFile := before 0 (Nat.succ_pos count)
    rw [← afterTokens_fetch] at last ⊢
    obtain ⟨segments, lastGap, segmented, length, each, ending⟩ := ih last fun earlier less => by
      rw [afterTokens_fetch]
      exact before (earlier + 1) (Nat.succ_lt_succ less)
    refine ⟨{ gap := gap, lexeme := reader.fetch.1.token.lexeme } :: segments, lastGap, ?_,
      congrArg (· + 1) length, ?_, ending⟩
    · rw [split]
      exact Segmented.segment fits segmented
    · intro place segment found
      cases place with
      | zero =>
        obtain rfl : _ = segment := Option.some.inj found
        refine ⟨rfl, ?_⟩
        rw [afterTokens, Fetch.commands, script, if_neg notEnd, List.append_nil]
      | succ place =>
        rw [← afterTokens_fetch]
        exact each place segment found

end Reader

namespace Cursor

/-- The calls return the lexemes of the segments in their order. Each of them writes out the token
before it and copies the directives of the gap that it passes over, and so does the call after them,
which also ends the pending line. -/
structure Yields (cursor : Cursor Reader) (segments : List Segment) (last : Gap) : Prop where
  lexeme {place : Nat} {segment : Segment} (found : segments[place]? = some segment) :
    (cursor.call place).cursor.current.lexeme = segment.lexeme
  script {place : Nat} {segment : Segment} (found : segments[place]? = some segment) :
    (cursor.call place).script = (cursor.afterCalls place).release ++ segment.gap.commands
  ending : (cursor.call segments.length).script =
    (cursor.afterCalls segments.length).release ++ (last.commands ++ [.endLine false])

/-- A text is cut up completely. If calls return the end after so many other tokens, then the text
consists of the lexemes of these tokens and the gaps before and between and behind them, and the
directives in the gaps are copied to the listing in their order. -/
theorem calls_segment_text {reader : Reader} {traced : Bool} {count : Nat}
    (last : ((ofReader reader traced).call count).cursor.current.category = .endOfFile)
    (before : ∀ earlier < count,
      ((ofReader reader traced).call earlier).cursor.current.category ≠ .endOfFile) :
    ∃ segments gap, Segmented reader.chars segments gap ∧ segments.length = count ∧
      (ofReader reader traced).Yields segments gap := by
  simp only [current_call] at last before
  obtain ⟨segments, gap, segmented, rfl, each, ending⟩ := Reader.exists_segmented last before
  refine ⟨segments, gap, segmented, rfl, ?_, ?_, ?_⟩
  · intro place segment found
    rw [current_call]
    exact (each place segment found).1
  · intro place segment found
    rw [(call_ofReader reader traced place).2.2, (each place segment found).2]
  · rw [(call_ofReader reader traced segments.length).2.2, ending]

/-- The first comment does not end at its second character; blanks stand behind the backslashes of
the first directive, the line comment is not continued, and the text ends within a directive. -/
theorem calls_segment_text_dangling :
    let reader := (Reader.ofSource
      (Source.ofText "/*/ */a#b \\ \n/*c\\\t\nd\n\"\\\"\n\"//e\\\n#f\\\n".toList)).1
    ((ofReader reader true).call 2).cursor.current.category = .endOfFile ∧
      (∀ earlier < 2, ((ofReader reader true).call earlier).cursor.current.category ≠ .endOfFile) ∧
      ∃ segments gap, Segmented reader.chars segments gap ∧ segments.length = 2 ∧
        (ofReader reader true).Yields segments gap := by
  intro reader
  have last : ((ofReader reader true).call 2).cursor.current.category = .endOfFile := by
    decide +kernel
  have before : ∀ earlier < 2,
      ((ofReader reader true).call earlier).cursor.current.category ≠ .endOfFile := by
    decide +kernel
  exact ⟨last, before, calls_segment_text last before⟩

end Cursor

end CListing
