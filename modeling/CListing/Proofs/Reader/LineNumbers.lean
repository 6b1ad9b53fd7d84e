import CListing.Proofs.Reader.Requests
import CListing.Proofs.Reader.Segments
import CListing.Proofs.Source.Places

/-!
# Line numbers

A reader counts the line feeds of what it takes, blanks and pieces alike, so its line is known from
what it has passed of the text. Headings keep their line feeds when they are left out of a source;
therefore the line of a token is the one in which it stands in the original, headings included.
-/

namespace CListing

open Unicode Scan

namespace Reader

/-- The reader is within the text, and its line counts the line feeds before it. -/
def Numbers (reader : Reader) (text : List Char) : Prop :=
  ∃ passed, text = passed ++ reader.chars ∧ reader.line = 1 + passed.count '\n'

namespace Numbers

variable {reader : Reader} {text : List Char}

theorem ofSource (source : Source) : (ofSource source).1.Numbers source.text :=
  ⟨[], (chars_ofSource source).symm, line_notice _⟩

/-- What is taken is counted. -/
theorem take (numbers : reader.Numbers text) {cut : Cut} (whole : cut.text = reader.chars) :
    (reader.take cut).1.Numbers text := by
  obtain ⟨passed, split, line⟩ := numbers
  refine ⟨passed ++ cut.extent, ?_, ?_⟩
  · rw [chars_take, List.append_assoc, split, ← whole, Cut.text]
  · rw [Reader.take, line_notice, List.count_append, line, Nat.add_assoc]

theorem skipBlanks (numbers : reader.Numbers text) : reader.skipBlanks.1.Numbers text :=
  numbers.take (Cut.text_span isBlank reader.chars)

theorem scan (numbers : reader.Numbers text) : reader.scan.2.Numbers text :=
  numbers.skipBlanks.take (text_ofText reader.skipBlanks.1.chars)

/-- The next token has the line of the reader in front of it, and behind it the count goes on. -/
theorem fetch (numbers : reader.Numbers text) :
    reader.toToken.Numbers text ∧ reader.fetch.1.token.line = reader.toToken.line ∧
      reader.fetch.2.Numbers text := by
  induction reader using fetch_induction with
  | counts reader counts =>
    rw [toToken_of_counts counts, fetch_of_counts counts]
    exact ⟨numbers.skipBlanks, rfl, numbers.scan⟩
  | passed reader passed ih =>
    rw [toToken_of_isPassedOver passed, fetch_of_isPassedOver passed]
    exact ih numbers.scan

theorem afterTokens (numbers : reader.Numbers text) (count : Nat) :
    (reader.afterTokens count).Numbers text := by
  induction count with
  | zero => exact numbers
  | succ count ih => exact ih.fetch.2.2

end Numbers

end Reader

namespace Cursor

/-- The current token of a cursor was the last one to be fetched, unless there is none yet. -/
theorem Flushed.last {reader : Reader} {session : Session Reader} (flushed : Flushed reader session)
    (begun : session.cursor.current.category ≠ .noToken) :
    ∃ count, session.cursor.current = (reader.afterTokens count).fetch.1.token ∧
      session.cursor.source = (reader.afterTokens count).fetch.2 := by
  obtain ⟨count, flushedTokens, source, fetched, -⟩ := flushed.fetched
  cases count with
  | zero =>
    have current : Token.start = session.cursor.current := by
      simpa [Reader.tokens] using congrArg List.getLast? fetched
    rw [← current] at begun
    contradiction
  | succ count =>
    refine ⟨count, ?_, source⟩
    rw [Reader.tokens, ← List.cons_append] at fetched
    exact (List.singleton_inj.mp (List.append_inj' fetched rfl).2).symm

/-- The text from the current token on. -/
def Session.seen (session : Session Reader) : List Char :=
  session.cursor.current.lexeme ++ session.cursor.source.chars

/-- The line of a token is one more than the number of the line feeds before its first character in
the original. The token is what the scanner finds at this place, all that was passed of the text
stands before it, and the end stands behind all characters. It does not matter what was asked of the
cursor to get there. -/
theorem line_current {source : Source} {traced : Bool} {requests : List Request}
    {session : Session Reader}
    (ran : Session.run { cursor := ofReader (Reader.ofSource source).1 traced } requests = session)
    (begun : session.cursor.current.category ≠ .noToken) :
    ∃ passed, source.text = passed ++ session.seen ∧
      Source.Divides source.original passed session.seen (source.placeOf session.seen) ∧
      (Scan.ofText session.seen).item = session.cursor.current.item ∧
      session.cursor.current.line =
        1 + (source.original.take (source.placeOf session.seen)).count '\n' ∧
      (session.cursor.current.category = .endOfFile →
        session.seen = [] ∧ session.cursor.current.line = 1 + source.original.count '\n') := by
  have flushed : Flushed (Reader.ofSource source).1 session := by
    rw [← ran]
    exact (Flushed.start (Reader.ofSource source).1 traced).run requests
  obtain ⟨count, current, behind⟩ := flushed.last begun
  obtain ⟨⟨passed, split, line⟩, same, -⟩ :=
    ((Reader.Numbers.ofSource source).afterTokens count).fetch
  have seen : session.seen = ((Reader.ofSource source).1.afterTokens count).toToken.chars := by
    rw [Reader.chars_toToken, ← current, ← behind, Session.seen]
  rw [← seen] at split
  have divides := Source.divides_placeOf split
  have number : session.cursor.current.line =
      1 + (source.original.take (source.placeOf session.seen)).count '\n' := by
    rw [divides.feeds, ← line, ← same, ← current]
  refine ⟨passed, split, divides, ?_, number, ?_⟩
  · rw [seen, ← Reader.item_fetch, ← current]
  · intro last
    rw [current] at last
    have nothing : session.seen = [] := seen.trans (Reader.toToken_eq_nil last)
    rw [nothing] at divides number
    exact ⟨nothing, by rw [number, divides.take_of_end]⟩

/-- Of the nine lines two are headings; a comment, a directive and the literal before the name take
up two lines each, and the literal was put back. The name stands in the seventh line. The end stands
in the ninth, behind the second heading, of which nothing was left. -/
theorem line_current_after_heading :
    let text := "x\n\x0cx PAGE 12\n/*\n*/#d\\ \n\te\n\"\n\" a\n//b\n\x0cx PAGE 13".toList
    let source := Source.ofText text
    let beginning : Session Reader := { cursor := ofReader (Reader.ofSource source).1 false }
    let name := beginning.run [.next, .next, .putBack, .next, .next]
    let ending := beginning.run [.next, .next, .putBack, .next, .next, .next]
    (name.cursor.current.category = .identifier ∧ name.cursor.current.lexeme = ['a'] ∧
      name.cursor.current.line = 7 ∧ source.placeOf name.seen = 30 ∧
      Source.Divides text "x\n\n/*\n*/#d\\ \n\te\n\"\n\" ".toList "a\n//b\n".toList 30) ∧
      ending.cursor.current.category = .endOfFile ∧ ending.cursor.current.lexeme = [] ∧
        ending.cursor.current.line = 9 ∧ ending.seen = [] ∧
        source.placeOf ending.seen = text.length ∧
        Source.Divides text source.text [] text.length := by
  intro text source beginning name ending
  have original : source.original = text := Source.original_ofText text
  have word : name.cursor.current.category = .identifier ∧ name.cursor.current.lexeme = ['a'] := by
    decide +kernel
  have last : ending.cursor.current.category = .endOfFile ∧ ending.cursor.current.lexeme = [] := by
    decide +kernel
  have seen : name.seen = "a\n//b\n".toList := by decide +kernel
  have ranName : beginning.run [.next, .next, .putBack, .next, .next] = name := rfl
  have ranEnding : beginning.run [.next, .next, .putBack, .next, .next, .next] = ending := rfl
  obtain ⟨passed, split, divides, -, line, -⟩ := line_current ranName (by rw [word.1]; decide)
  obtain ⟨all, whole, behind, -, -, ends⟩ := line_current ranEnding (by rw [last.1]; decide)
  obtain ⟨nothing, lines⟩ := ends last.1
  have place : source.placeOf name.seen = 30 := by
    rw [seen]
    decide +kernel
  have final : source.placeOf ending.seen = text.length := by
    rw [nothing]
    decide +kernel
  have parts : source.text = "x\n\n/*\n*/#d\\ \n\te\n\"\n\" ".toList ++ "a\n//b\n".toList := by
    decide +kernel
  rw [seen] at split
  have before := List.append_cancel_right (split.symm.trans parts)
  rw [original, before, place, seen] at divides
  rw [original, place] at line
  rw [nothing, List.append_nil] at whole
  rw [original, final, nothing, ← whole] at behind
  rw [original] at lines
  refine ⟨⟨word.1, word.2, ?_, place, divides⟩, last.1, last.2, ?_, nothing, final, behind⟩
  · rw [line]
    decide +kernel
  · rw [lines]
    decide +kernel

end Cursor

end CListing
