import CListing.Proofs.Reader.Faultless

/-!
# Extents of literals and numbers

A reader that stands at a quote takes a literal up to its closing quote, or all of its text if there
is none, which is noted. A reader that stands at a number takes the longest one there is. Both
statements hold of every text, whatever stands before it and behind it.
-/

namespace CListing.Reader

open Unicode Scan

variable {reader : Reader}

/-- The notes of a scan are about its piece, apart from a read error. -/
theorem others_scan (awaits : reader.AwaitsError) :
    Note.others reader.scan.1.notes = noteOf reader.scan.1.token.line (next reader.chars) := by
  have blanks := passes_take awaits (Cut.span isBlank reader.chars)
  have noBlankNotes := others_take awaits (Cut.span isBlank reader.chars)
  have noPieceNotes := others_take (blanks.awaitsError awaits)
    { extent := (ofText reader.skipBlanks.1.chars).extent,
      rest := (ofText reader.skipBlanks.1.chars).rest }
  rw [next, ← chars_skipBlanks, ← others_noteOf]
  simp only [scan, Note.others_append]
  simp only [skipBlanks] at noBlankNotes noPieceNotes ⊢
  rw [noBlankNotes, noPieceNotes]
  rfl

/-- A piece that begins with no blank is in the line of the reader. -/
theorem line_scan {c : Char} {rest : List Char} (ink : isBlank c = false)
    (stands : reader.chars = c :: rest) : reader.scan.1.token.line = reader.line := by
  have line : reader.skipBlanks.1.line =
      reader.line + (reader.chars.takeWhile isBlank).count '\n' := line_notice _
  have noBlanks : reader.chars.takeWhile isBlank = [] := by
    rw [stands, List.takeWhile_cons_of_neg (by simp [ink])]
  rw [noBlanks] at line
  exact line

theorem next_cons {c : Char} (ink : isBlank c = false) (rest : List Char) :
    next (c :: rest) = ofText (c :: rest) := by
  rw [next, List.dropWhile_cons_of_neg (by simp [ink])]

/-- The message about a literal without a closing quote. -/
theorem message_noteOf_literal (line : Nat) (mark : List Char) (quote : Char) (rest : List Char) :
    (noteOf line (literal mark quote rest)).map Note.message =
      if (literalTail quote rest).closed then []
      else ["Line " ++ toString line ++ ": unterminated literal at end of file"] := by
  have closed : (literal mark quote rest).closed = (literalTail quote rest).closed := rfl
  have noComment : (literal mark quote rest).category ≠ .comment := by
    unfold literal ofCut
    dsimp only
    split <;> simp
  rw [noteOf, closed, if_neg noComment]
  split <;> rfl

/-- A literal ends at the first quote with an even number of backslashes before it, or with the
text. Its lexeme is all that it takes up, and only a literal without a closing quote is noted, once
and with the line in which it begins. -/
theorem scan_literal_extent {mark rest : List Char} {quote : Char} (awaits : reader.AwaitsError)
    (markEq : mark = [] ∨ mark = ['L']) (quoteEq : quote = '"' ∨ quote = '\'')
    (stands : reader.chars = mark ++ quote :: rest) :
    reader.scan.1.token.category = (if quote = '"' then .string else .constant) ∧
      reader.scan.1.token.line = reader.line ∧
      ∃ cut, LiteralEnd quote rest cut ∧
        reader.scan.1.token.lexeme = mark ++ quote :: cut.extent ∧
        reader.scan.2.chars = cut.rest ∧
        (Note.others reader.scan.1.notes).map Note.message =
          if cut.closed then []
          else ["Line " ++ toString reader.line ++ ": unterminated literal at end of file"] := by
  have plain : quote ≠ '\\' := by rcases quoteEq with rfl | rfl <;> decide
  have piece : next reader.chars = literal mark quote rest ∧
      reader.scan.1.token.line = reader.line := by
    rcases markEq with rfl | rfl
    · have ink : isBlank quote = false := by rcases quoteEq with rfl | rfl <;> decide
      rw [stands, List.nil_append, next_cons ink, ofText_quote quoteEq]
      exact ⟨rfl, line_scan ink stands⟩
    · rw [stands, List.singleton_append, next_cons (by decide), ofText_wide quoteEq]
      exact ⟨rfl, line_scan (by decide) stands⟩
  obtain ⟨here, line⟩ := piece
  have item := reader.item_scan
  have left := reader.chars_scan
  have notes := others_scan awaits
  rw [here] at item left notes
  refine ⟨congrArg Item.category item, line, literalTail quote rest,
    literalEnd_literalTail plain rest, congrArg Item.lexeme item, left, ?_⟩
  rw [notes, message_noteOf_literal, line]

/-- Of the three double quotes behind the first one, the last one closes the literal: the others
have one and three backslashes before them, it has two. -/
theorem scan_literal_extent_escapes :
    let reader := (ofSource (Source.ofText "L\"a\\\"'\n\\\\\\\"\\\\\" b".toList)).1
    let rest := "a\\\"'\n\\\\\\\"\\\\\" b".toList
    reader.AwaitsError ∧ reader.chars = ['L'] ++ '"' :: rest ∧
      ∃ cut, LiteralEnd '"' rest cut ∧
        reader.scan.1.token.lexeme = ['L'] ++ '"' :: cut.extent ∧ reader.scan.2.chars = cut.rest ∧
        cut.rest = " b".toList := by
  intro reader rest
  have awaits : reader.AwaitsError := awaitsError_ofSource _
  have stands : reader.chars = ['L'] ++ '"' :: rest := by decide +kernel
  obtain ⟨-, -, cut, ends, lexeme, left, -⟩ :=
    scan_literal_extent awaits (Or.inr rfl) (Or.inl rfl) stands
  have behind : reader.scan.2.chars = " b".toList := by decide +kernel
  exact ⟨awaits, stands, cut, ends, lexeme, left, left.symm.trans behind⟩

/-- The text ends behind a backslash, which takes nothing along. -/
example :
    let fetch := ({ chars := "'\\'\\".toList, line := 7 } : Reader).scan.1
    fetch.token.lexeme = "'\\'\\".toList ∧ fetch.notes = [.unterminatedLiteral 7] := by
  decide +kernel

/-- Where a number begins, it is taken as far as it goes: its lexeme is the longest beginning of the
text whose characters belong to a number. Whether a sign may follow is only asked behind the first
character, so the question has an answer each time. -/
theorem scan_number_extent {c : Char} {rest : List Char} (lower : isUpper c = false)
    (noLetter : (isLetter c || c = '_') = false) (starts : startsNumber (c :: rest) = true)
    (stands : reader.chars = c :: rest) :
    reader.scan.1.token.category = .constant ∧
      reader.scan.1.token.lexeme ≠ [] ∧
      IsLongestNumber reader.scan.1.token.lexeme reader.chars ∧
      numberFrom? [] reader.chars =
        some { extent := reader.scan.1.token.lexeme, rest := reader.scan.2.chars } := by
  have item := reader.item_scan
  have left := reader.chars_scan
  rw [stands, next_cons (isBlank_of_startsNumber starts), ofText_number lower noLetter starts]
    at item left
  have lexeme : reader.scan.1.token.lexeme = (numberCut (c :: rest)).extent :=
    congrArg Item.lexeme item
  refine ⟨congrArg Item.category item, ?_, ?_, ?_⟩
  · rw [lexeme]
    exact extent_numberCut_ne_nil starts
  · rw [lexeme, stands]
    exact isLongestNumber_extent starts
  · obtain ⟨number, behind, -, cut, -⟩ := numberFrom_spec [] (c :: rest)
    rw [lexeme, left, stands, numberFrom?_of_startsNumber starts, numberCut, cut]
    rfl

/-- In a hexadecimal number `e` is a digit, so the second sign does not belong to it. -/
theorem scan_number_extent_hexadecimal :
    let reader : Reader := { chars := "0x1p+4e-5".toList }
    isUpper '0' = false ∧ (isLetter '0' || decide ('0' = '_')) = false ∧
      startsNumber ('0' :: "x1p+4e-5".toList) = true ∧ reader.chars = '0' :: "x1p+4e-5".toList ∧
      IsLongestNumber reader.scan.1.token.lexeme reader.chars ∧
      reader.scan.1.token.lexeme = "0x1p+4e".toList := by
  intro reader
  have lower : isUpper '0' = false := by decide +kernel
  have noLetter : (isLetter '0' || decide ('0' = '_')) = false := by decide +kernel
  have starts : startsNumber ('0' :: "x1p+4e-5".toList) = true := by decide +kernel
  have stands : reader.chars = '0' :: "x1p+4e-5".toList := by decide +kernel
  obtain ⟨-, -, longest, -⟩ := scan_number_extent lower noLetter starts stands
  exact ⟨lower, noLetter, starts, stands, longest, by decide +kernel⟩

end CListing.Reader
