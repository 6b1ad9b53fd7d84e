import CListing.Listing.Basic
import CListing.Proofs.Text.Pieces
import CListing.Proofs.Unicode.Classes
import CListing.Source.Basic

/-!
# Listings read back

What a source makes of the text of a listing. Headings come back as empty lines. A line that holds
line feeds comes back as several lines, and one of them may be taken for a heading; then the line is
torn at the form feed that this heading begins with.
-/

namespace CListing

open Unicode

namespace Source

theorem splitAfter_append {line : List Char} (plain : '\n' ∉ line) (rest : List Char) :
    splitAfter (· == '\n') (line ++ '\n' :: rest) =
      (line ++ ['\n']) :: splitAfter (· == '\n') rest := by
  induction line with
  | nil => simp [splitAfter]
  | cons c more ih =>
    rw [List.mem_cons, not_or] at plain
    have goesOn : (c == '\n') = false := by simpa using Ne.symm plain.1
    rw [List.cons_append, splitAfter, if_neg (by simp [goesOn]), ih plain.2]
    rfl

/-- A text before a line feed is cut into its pieces between line feeds. -/
theorem splitAfter_append_feed (text rest : List Char) :
    splitAfter (· == '\n') (text ++ '\n' :: rest) =
      (Text.pieces '\n' text).map (· ++ ['\n']) ++ splitAfter (· == '\n') rest := by
  induction length : text.length using Nat.strongRecOn generalizing text with
  | _ size ih =>
    subst length
    by_cases feed : '\n' ∈ text
    · obtain ⟨line, more, split, plain⟩ := List.eq_append_cons_of_mem feed
      have shorter : more.length < text.length := by
        rw [split, List.length_append, List.length_cons]
        exact Nat.lt_add_left _ (Nat.lt_succ_self _)
      rw [split, List.append_assoc, List.cons_append, splitAfter_append plain,
        ih _ shorter more rfl, Text.pieces_append_cons plain]
      rfl
    · rw [splitAfter_append feed, Text.pieces_of_not_mem feed]
      rfl

end Source

/-- What a source makes of a line of a listing. -/
def Line.readBack (line : Line) : List Char :=
  (Text.pieces '\n' line.text).flatMap fun piece => Source.withoutHeading (piece ++ ['\n'])

/-- The source in the text of a listing is what it makes of the lines. -/
theorem Source.text_ofText_renderLines (lines : List Line) :
    (ofText (Listing.renderLines lines)).text = lines.flatMap Line.readBack := by
  induction lines with
  | nil => rfl
  | cons line lines ih =>
    rw [text, ofText] at ih
    rw [text, ofText, Listing.renderLines, List.flatMap_cons, List.append_assoc,
      List.singleton_append, splitAfter_append_feed, List.flatMap_append, List.flatMap_cons,
      ← ih, List.flatMap_map]
    rfl

/-! ## Headings -/

namespace Heading

/-- What may stand behind the number of a heading. -/
def lineEndings : List (List Char) :=
  [[], ['\r'], ['\n'], ['\r', '\n']]

/-- The lines that are taken for headings: a form feed, anything without line feeds, the word with a
number, and perhaps a carriage return and a line feed. -/
def IsHeadingLine (line : List Char) : Prop :=
  ∃ free digits ending,
    line = '\x0c' :: free ++ "PAGE ".toList ++ digits ++ ending ∧ '\n' ∉ free ∧
      (digits ≠ [] ∧ ∀ c ∈ digits, isDecimal c = true) ∧
        ending ∈ lineEndings

theorem eq_dropHead_or (c : Char) (text : List Char) :
    text = dropHead c text ∨ text = c :: dropHead c text := by
  cases text with
  | nil => exact Or.inl rfl
  | cons d rest =>
    rw [dropHead]
    split
    · rename_i same
      exact Or.inr (by rw [same])
    · exact Or.inl rfl

/-- A line is its body with one of four endings. -/
theorem exists_ending (line : List Char) :
    ∃ ending ∈ lineEndings, line = (reversedBody line).reverse ++ ending := by
  have whole : line = line.reverse.reverse := line.reverse_reverse.symm
  rcases eq_dropHead_or '\n' line.reverse with plain | feed
  · rw [plain] at whole
    rcases eq_dropHead_or '\r' (dropHead '\n' line.reverse) with plain | carriage
    · exact ⟨[], by simp [lineEndings], by rw [reversedBody, ← plain, ← whole, List.append_nil]⟩
    · rw [carriage, List.reverse_cons] at whole
      exact ⟨['\r'], by simp [lineEndings], whole⟩
  · rw [feed, List.reverse_cons] at whole
    rcases eq_dropHead_or '\r' (dropHead '\n' line.reverse) with plain | carriage
    · rw [plain] at whole
      exact ⟨['\n'], by simp [lineEndings], whole⟩
    · rw [carriage, List.reverse_cons, List.append_assoc] at whole
      exact ⟨['\r', '\n'], by simp [lineEndings], whole⟩

/-- The body of a line ends in its last character before the ending. -/
theorem reversedBody_append {front ending : List Char} {last : Char} (noFeed : last ≠ '\n')
    (noReturn : last ≠ '\r') (optional : ending ∈ lineEndings) :
    reversedBody (front ++ [last] ++ ending) = last :: front.reverse := by
  simp only [lineEndings, List.mem_cons, List.not_mem_nil, or_false] at optional
  rcases optional with rfl | rfl | rfl | rfl
  · simp [reversedBody, dropHead, noFeed, noReturn]
  · simp [reversedBody, dropHead]
  · simp [reversedBody, dropHead, noReturn]
  · simp [reversedBody, dropHead]

/-- What the body of a heading is in reverse. -/
theorem matches?_eq_true_iff {line : List Char} :
    matches? line = true ↔
      ∃ digits before, reversedBody line = digits ++ "PAGE ".toList.reverse ++ before ∧
        (digits ≠ [] ∧ ∀ c ∈ digits, isDecimal c = true) ∧
          before.getLast? = some '\x0c' ∧ '\n' ∉ before := by
  have noDigit : isDecimal ' ' = false := by decide
  unfold matches?
  dsimp only
  constructor
  · intro heading
    have whole := List.takeWhile_append_dropWhile (p := isDecimal) (l := reversedBody line)
    have decimal :=
      List.all_eq_true.mp (List.all_takeWhile (p := isDecimal) (l := reversedBody line))
    split at heading
    · rename_i before rest
      rw [Bool.and_eq_true, Bool.and_eq_true] at heading
      obtain ⟨⟨nonempty, first⟩, plain⟩ := heading
      rw [rest] at whole
      refine ⟨_, before, ?_, ⟨by simpa using nonempty, decimal⟩, by simpa using first,
        by simpa using plain⟩
      rw [List.append_assoc]
      exact whole.symm
    · contradiction
  · rintro ⟨digits, before, body, ⟨nonempty, decimal⟩, first, plain⟩
    rw [body, List.append_assoc, List.takeWhile_append_of_pos decimal,
      List.dropWhile_append_of_pos decimal]
    simp [noDigit, nonempty, first, plain]

/-- A line is taken for a heading exactly if it has the form of one. -/
theorem matches?_iff {line : List Char} : matches? line = true ↔ IsHeadingLine line := by
  rw [matches?_eq_true_iff]
  constructor
  · rintro ⟨digits, before, body, ⟨nonempty, decimal⟩, first, plain⟩
    obtain ⟨ending, optional, whole⟩ := exists_ending line
    obtain ⟨free, rfl⟩ := List.getLast?_eq_some_iff.mp first
    refine ⟨free.reverse, digits.reverse, ending, ?_, ?_, ⟨by simpa using nonempty, ?_⟩, optional⟩
    · rw [whole, body]
      simp
    · rw [List.mem_append, not_or] at plain
      simpa using plain.1
    · intro c member
      exact decimal c (List.mem_reverse.mp member)
  · rintro ⟨free, digits, ending, rfl, plain, ⟨nonempty, decimal⟩, optional⟩
    have lastDecimal := decimal _ (List.getLast_mem nonempty)
    have whole := List.dropLast_concat_getLast nonempty
    generalize digits.getLast nonempty = last at lastDecimal whole
    have noFeed : last ≠ '\n' := by
      rintro rfl
      exact absurd lastDecimal (by decide)
    have noReturn : last ≠ '\r' := by
      rintro rfl
      exact absurd lastDecimal (by decide)
    refine ⟨digits.reverse, free.reverse ++ ['\x0c'], ?_, ⟨by simpa using nonempty, ?_⟩, ?_, ?_⟩
    · rw [← whole, ← List.append_assoc, reversedBody_append noFeed noReturn optional]
      simp
    · intro c member
      exact decimal c (List.mem_reverse.mp member)
    · exact List.getLast?_concat
    · simpa using plain

/-- A heading begins with a form feed. -/
theorem head?_of_matches? {line : List Char} (heading : matches? line = true) :
    line.head? = some '\x0c' := by
  obtain ⟨free, digits, ending, rfl, -⟩ := matches?_iff.mp heading
  rfl

/-- A line that ends in a backslash is no heading. -/
theorem matches?_of_backslash {line : List Char} (continues : line.getLast? = some '\\') :
    matches? (line ++ ['\n']) = false := by
  obtain ⟨front, rfl⟩ := List.getLast?_eq_some_iff.mp continues
  have body : reversedBody (front ++ ['\\'] ++ ['\n']) = '\\' :: front.reverse :=
    reversedBody_append (by decide) (by decide) (by decide)
  have noDigit : isDecimal '\\' = false := by decide
  unfold matches?
  dsimp only
  rw [body, List.dropWhile_cons_of_neg (by simp [noDigit])]
  rfl

theorem isDecimal_of_isDigit {c : Char} (digit : c.isDigit = true) : isDecimal c = true := by
  simp only [Char.isDigit, Bool.and_eq_true, decide_eq_true_iff, ge_iff_le,
    UInt32.le_iff_toNat_le] at digit
  obtain ⟨low, high⟩ : 0x30 ≤ c.toNat ∧ c.toNat ≤ 0x39 := digit
  rw [isDecimal, decimalSpans, covers, if_neg (Nat.not_lt_of_le low), decide_eq_true high,
    Bool.true_or]

theorem isDecimal_of_mem_toDigits {number : Nat} {c : Char}
    (member : c ∈ Nat.toDigits 10 number) : isDecimal c = true :=
  isDecimal_of_isDigit (Nat.isDigit_of_mem_toDigits (by decide) (by decide) member)

theorem not_mem_paddedName {name : List Char} (plain : '\n' ∉ name) (width : Int) :
    '\n' ∉ paddedName name width := by
  rw [paddedName, List.mem_append, not_or]
  exact ⟨plain, fun blank => absurd (List.eq_of_mem_replicate blank) (by decide)⟩

theorem not_mem_text {name : List Char} (plain : '\n' ∉ name) (width : Int) (number : Nat) :
    '\n' ∉ text name width number := by
  intro feed
  have field := not_mem_paddedName plain width
  have digits : '\n' ∉ Nat.toDigits 10 number := by
    intro member
    exact absurd (isDecimal_of_mem_toDigits member) (by decide)
  simp [text, field, digits] at feed

/-- The heading of a page has the form of a heading, whatever the name in it holds. -/
theorem isHeadingLine_text {name : List Char} (plain : '\n' ∉ name) (width : Int) (number : Nat) :
    IsHeadingLine (text name width number ++ ['\n']) :=
  ⟨paddedName name width, (toString number).toList, ['\n'], rfl, not_mem_paddedName plain width,
    ⟨by simp, fun c member => isDecimal_of_mem_toDigits (by simpa using member)⟩, by decide⟩

/-- Headings are recognized. -/
theorem matches?_text {name : List Char} (plain : '\n' ∉ name) (width : Int) (number : Nat) :
    matches? (text name width number ++ ['\n']) = true :=
  matches?_iff.mpr (isHeadingLine_text plain width number)

end Heading

namespace Source

theorem withoutHeading_of_not_matches? {line : List Char}
    (noHeading : Heading.matches? line = false) : withoutHeading line = line := by
  rw [withoutHeading, if_neg (by simp [noHeading])]

theorem withoutHeading_of_matches? {line : List Char}
    (heading : Heading.matches? (line ++ ['\n']) = true) :
    withoutHeading (line ++ ['\n']) = ['\n'] := by
  rw [withoutHeading, if_pos heading, List.getLast?_append]
  rfl

/-- Lines after one that is no heading come back as they are, or else there is a first heading
among them. -/
theorem flatMap_withoutHeading {first : List Char} (more : List (List Char))
    (noHeading : Heading.matches? (first ++ ['\n']) = false) :
    ((first :: more).flatMap fun line => withoutHeading (line ++ ['\n'])) =
        Text.joined '\n' (first :: more) ++ ['\n'] ∨
      ∃ front back rest, Text.joined '\n' (first :: more) = front ++ '\n' :: '\x0c' :: back ∧
        ((first :: more).flatMap fun line => withoutHeading (line ++ ['\n'])) =
          front ++ '\n' :: '\n' :: rest := by
  have kept := withoutHeading_of_not_matches? noHeading
  induction more generalizing first with
  | nil =>
    left
    rw [List.flatMap_singleton, kept, Text.joined_singleton]
  | cons second others ih =>
    rw [List.flatMap_cons, kept, Text.joined_cons_cons]
    cases heading : Heading.matches? (second ++ ['\n']) with
    | true =>
      right
      have begins := Heading.head?_of_matches? heading
      have dropped := withoutHeading_of_matches? heading
      cases second with
      | nil => simp at begins
      | cons c tail =>
        obtain rfl : c = '\x0c' := by simpa using begins
        refine ⟨first, Text.joined '\n' (tail :: others),
          others.flatMap fun line => withoutHeading (line ++ ['\n']), ?_, ?_⟩
        · rw [Text.joined_cons]
        · rw [List.flatMap_cons, dropped]
          simp
    | false =>
      have later := withoutHeading_of_not_matches? heading
      rcases ih heading later with same | ⟨front, back, rest, split, changed⟩
      · left
        rw [same]
        simp
      · right
        refine ⟨first ++ '\n' :: front, back, rest, ?_, ?_⟩
        · rw [split]
          simp
        · rw [changed]
          simp

end Source

namespace Line

theorem readBack_of_not_mem {line : Line} (plain : '\n' ∉ line.text) :
    line.readBack = Source.withoutHeading (line.text ++ ['\n']) := by
  rw [readBack, Text.pieces_of_not_mem plain, List.flatMap_singleton]

/-- A heading comes back as an empty line. -/
theorem readBack_heading {name : List Char} (plain : '\n' ∉ name) (width : Int) (number : Nat)
    (origin : Origin) :
    readBack { origin := origin, text := Heading.text name width number } = ['\n'] := by
  rw [readBack_of_not_mem (Heading.not_mem_text plain _ _),
    Source.withoutHeading_of_matches? (Heading.matches?_text plain _ _)]

/-- The line comes back as it was written. -/
def ReadsBack (line : Line) : Prop :=
  line.readBack = line.text ++ ['\n']

instance (line : Line) : Decidable line.ReadsBack :=
  inferInstanceAs (Decidable (_ = _))

/-- A line that does not come back as it was written is torn at a form feed, unless it begins with
one. -/
theorem exists_torn {line : Line} (begins : line.text.head? ≠ some '\x0c')
    (changed : ¬ line.ReadsBack) :
    ∃ front back rest, line.text = front ++ '\n' :: '\x0c' :: back ∧
      line.readBack = front ++ '\n' :: '\n' :: rest := by
  have whole := Text.joined_pieces '\n' line.text
  rw [ReadsBack, readBack] at changed
  rw [readBack]
  cases pieces : Text.pieces '\n' line.text with
  | nil => exact absurd pieces (Text.pieces_ne_nil '\n' line.text)
  | cons first more =>
    rw [pieces] at whole changed
    have noHeading : Heading.matches? (first ++ ['\n']) = false := by
      cases heading : Heading.matches? (first ++ ['\n']) with
      | false => rfl
      | true =>
        have mark := Heading.head?_of_matches? heading
        cases first with
        | nil => simp at mark
        | cons c tail =>
          rw [Text.joined_cons] at whole
          rw [← whole] at begins
          exact absurd mark begins
    rcases Source.flatMap_withoutHeading more noHeading with same | torn
    · rw [whole] at same
      exact absurd same changed
    · rwa [whole] at torn

end Line

end CListing
