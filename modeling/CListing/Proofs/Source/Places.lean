import CListing.Proofs.Source.ReadBack

/-!
# Places in the original

The text of a source is what its lines are without headings. Each character of it still has its
place in the original, that is in the lines put together. Leaving out the headings leaves out no
line feed, so before a character there are as many of them in the original as in the text.
-/

namespace CListing

open Unicode

namespace Heading

/-- A heading is a text without line feeds, and perhaps one line feed after it. -/
theorem exists_body {line : List Char} (heading : matches? line = true) :
    ∃ body, '\n' ∉ body ∧ (line = body ∨ line = body ++ ['\n']) := by
  obtain ⟨free, digits, ending, rfl, plain, ⟨-, decimal⟩, optional⟩ := matches?_iff.mp heading
  have noDigit : '\n' ∉ digits := fun inside => absurd (decimal '\n' inside) (by decide)
  have noFeed : '\n' ∉ '\x0c' :: free ++ "PAGE ".toList ++ digits := by simp [plain, noDigit]
  generalize '\x0c' :: free ++ "PAGE ".toList ++ digits = front at noFeed
  simp only [lineEndings, List.mem_cons, List.not_mem_nil, or_false] at optional
  rcases optional with rfl | rfl | rfl | rfl
  · exact ⟨front, noFeed, Or.inl (List.append_nil front)⟩
  · exact ⟨front ++ ['\r'], by simp [noFeed], Or.inl rfl⟩
  · exact ⟨front, noFeed, Or.inr rfl⟩
  · exact ⟨front ++ ['\r'], by simp [noFeed], Or.inr (by simp)⟩

end Heading

namespace Source

/-- The places in a line that are left if it is a heading: only that of its line feed. -/
def placesInLine (line : List Char) : List Nat :=
  if Heading.matches? line then
    if line.getLast? = some '\n' then [line.length - 1] else []
  else List.range line.length

/-- The places in the lines put together that are left without the headings. -/
def placesInLines : List (List Char) → List Nat
  | [] => []
  | line :: lines => placesInLine line ++ (placesInLines lines).map (line.length + ·)

/-- The lines put together, with the headings in them. -/
def original (source : Source) : List Char :=
  source.lines.flatten

/-- Where in the original the reader stands when it sees `rest`: at the first character of that, or
at the end. -/
def placeOf (source : Source) (rest : List Char) : Nat :=
  (placesInLines source.lines)[source.text.length - rest.length]?.getD source.original.length

/-- The place divides the whole as a text that is left of it is divided: what was passed of the text
stands before the place and has all line feeds that stand there, and the rest of the text begins at
the place and stands from it on. -/
structure Divides (whole passed rest : List Char) (place : Nat) : Prop where
  next : whole[place]? = rest.head?
  before : passed.Sublist (whole.take place)
  behind : rest.Sublist (whole.drop place)
  feeds : (whole.take place).count '\n' = passed.count '\n'

namespace Divides

variable {whole passed rest : List Char} {place : Nat}

theorem self (passed rest : List Char) :
    Divides (passed ++ rest) passed rest passed.length where
  next := by rw [List.getElem?_append_right (Nat.le_refl _), Nat.sub_self, List.head?_eq_getElem?]
  before := by simp
  behind := by simp
  feeds := by rw [List.take_left]

/-- Before the end of the rest there is a character at the place. -/
theorem lt_length (divides : Divides whole passed rest place) (more : rest ≠ []) :
    place < whole.length := by
  obtain ⟨c, others, rfl⟩ := List.exists_cons_of_ne_nil more
  exact (List.getElem?_eq_some_iff.mp divides.next).1

/-- The end of the text divides the whole at its end. -/
theorem take_of_end (divides : Divides whole passed [] place) : whole.take place = whole :=
  List.take_of_length_le (List.getElem?_eq_none_iff.mp divides.next)

/-- More lines may follow. -/
theorem append (divides : Divides whole passed rest place) (more : rest ≠ [])
    {lines text : List Char} (left : text.Sublist lines) :
    Divides (whole ++ lines) passed (rest ++ text) place := by
  have inside := divides.lt_length more
  refine ⟨?_, ?_, ?_, ?_⟩
  · rw [List.getElem?_append_left inside, divides.next]
    cases rest with
    | nil => exact absurd rfl more
    | cons c others => rfl
  · rw [List.take_append_of_le_length (Nat.le_of_lt inside)]
    exact divides.before
  · rw [List.drop_append_of_le_length (Nat.le_of_lt inside)]
    exact divides.behind.append left
  · rw [List.take_append_of_le_length (Nat.le_of_lt inside)]
    exact divides.feeds

/-- A line that was passed stands before the place, even if not all of it is left. -/
theorem after (divides : Divides whole passed rest place) {line text : List Char}
    (left : text.Sublist line) (count : text.count '\n' = line.count '\n') :
    Divides (line ++ whole) (text ++ passed) rest (line.length + place) := by
  refine ⟨?_, ?_, ?_, ?_⟩
  · rw [List.getElem?_append_right (Nat.le_add_right _ _), Nat.add_sub_cancel_left, divides.next]
  · rw [List.take_length_add_append]
    exact left.append divides.before
  · rw [List.drop_length_add_append]
    exact divides.behind
  · rw [List.take_length_add_append, List.count_append, List.count_append, count, divides.feeds]

end Divides

/-! ## Places in a line -/

/-- What a line is without a heading, and where it stands in the line. -/
inductive Kept : List Char → List Char → List Nat → Prop
  | line (line : List Char) : Kept line line (List.range line.length)
  | heading {body : List Char} (plain : '\n' ∉ body) : Kept body [] []
  | feed {body : List Char} (plain : '\n' ∉ body) : Kept (body ++ ['\n']) ['\n'] [body.length]

theorem kept (line : List Char) : Kept line (withoutHeading line) (placesInLine line) := by
  rw [withoutHeading, placesInLine]
  split
  · rename_i heading
    obtain ⟨body, plain, rfl | rfl⟩ := Heading.exists_body heading
    · have noFeed : line.getLast? ≠ some '\n' := fun last => plain (List.mem_of_getLast? last)
      rw [if_neg noFeed, if_neg noFeed]
      exact Kept.heading plain
    · rw [if_pos (by simp), if_pos (by simp), List.length_append, List.length_singleton,
        Nat.add_sub_cancel]
      exact Kept.feed plain
  · exact Kept.line line

namespace Kept

variable {whole text passed rest : List Char} {places : List Nat}

theorem length_eq (kept : Kept whole text places) : places.length = text.length := by
  cases kept with
  | line => exact List.length_range
  | heading => rfl
  | feed => rfl

theorem sublist (kept : Kept whole text places) : text.Sublist whole := by
  cases kept with
  | line => exact List.Sublist.refl _
  | heading => exact List.nil_sublist _
  | feed => exact List.sublist_append_right _ _

/-- No line feed is left out. -/
theorem count_eq (kept : Kept whole text places) : text.count '\n' = whole.count '\n' := by
  cases kept with
  | line => rfl
  | heading plain => exact (List.count_eq_zero.mpr plain).symm
  | feed plain => simp [List.count_eq_zero.mpr plain]

/-- The place of a character divides the line at it. -/
theorem divides (kept : Kept whole (passed ++ rest) places) (more : rest ≠ []) :
    ∃ place, places[passed.length]? = some place ∧ Divides whole passed rest place := by
  generalize split : passed ++ rest = text at kept
  cases kept with
  | line =>
    subst split
    refine ⟨passed.length, List.getElem?_range ?_, Divides.self passed rest⟩
    rw [List.length_append]
    exact Nat.lt_add_of_pos_right (List.length_pos_iff.mpr more)
  | heading => exact absurd (List.append_eq_nil_iff.mp split).2 more
  | @feed body plain =>
    obtain ⟨rfl, rfl⟩ : passed = [] ∧ rest = ['\n'] := by
      rcases List.append_eq_singleton_iff.mp split with here | ⟨_, ended⟩
      · exact here
      · exact absurd ended more
    refine ⟨body.length, rfl, ?_⟩
    have alone := Divides.self body ['\n']
    exact ⟨alone.next, List.nil_sublist _, alone.behind,
      alone.feeds.trans (List.count_eq_zero.mpr plain)⟩

end Kept

/-! ## Places in all lines -/

theorem sublist_flatMap_withoutHeading (lines : List (List Char)) :
    (lines.flatMap withoutHeading).Sublist lines.flatten := by
  induction lines with
  | nil => exact List.Sublist.refl _
  | cons line lines ih => exact (kept line).sublist.append ih

/-- Places in later lines are counted from the first line on. -/
theorem place_later (line : List Char) (lines : List (List Char)) (index : Nat) :
    (placesInLines (line :: lines))[(withoutHeading line).length + index]?.getD
        (line :: lines).flatten.length =
      line.length + (placesInLines lines)[index]?.getD lines.flatten.length := by
  rw [placesInLines, ← (kept line).length_eq, List.getElem?_append_right (Nat.le_add_right _ _),
    Nat.add_sub_cancel_left, List.getElem?_map, List.flatten_cons, List.length_append]
  cases (placesInLines lines)[index]? <;> rfl

/-- The place of a character divides the lines at it; behind the last character stands the end of
the lines. -/
theorem divides_placesInLines {lines : List (List Char)} {passed rest : List Char}
    (split : lines.flatMap withoutHeading = passed ++ rest) :
    Divides lines.flatten passed rest
      ((placesInLines lines)[passed.length]?.getD lines.flatten.length) := by
  induction lines generalizing passed rest with
  | nil =>
    obtain ⟨rfl, rfl⟩ := List.append_eq_nil_iff.mp split.symm
    exact Divides.self [] []
  | cons line lines ih =>
    have behind (later : List Char) (ends : lines.flatMap withoutHeading = later ++ rest)
        (begins : passed = withoutHeading line ++ later) :
        Divides (line :: lines).flatten passed rest
          ((placesInLines (line :: lines))[passed.length]?.getD
            (line :: lines).flatten.length) := by
      rw [begins, List.length_append, place_later]
      exact (ih ends).after (kept line).sublist (kept line).count_eq
    rw [List.flatMap_cons] at split
    rcases List.append_eq_append_iff.mp split with ⟨later, begins, ends⟩ | ⟨front, begins, ends⟩
    · exact behind later ends begins
    · by_cases more : front = []
      · -- The whole line was passed, so the place is the first one in the lines behind it.
        rw [more, List.append_nil] at begins
        rw [more, List.nil_append] at ends
        exact behind [] ends.symm (by rw [begins, List.append_nil])
      · have own := kept line
        rw [begins] at own
        obtain ⟨place, found, divides⟩ := own.divides more
        have inside := (List.getElem?_eq_some_iff.mp found).1
        rw [placesInLines, List.getElem?_append_left inside, found, ends]
        exact divides.append more (sublist_flatMap_withoutHeading lines)

@[simp]
theorem original_ofText (text : List Char) : (ofText text).original = text :=
  flatten_splitAfter _ text

variable {source : Source} {passed rest : List Char}

/-- Where the reader stands when it sees `rest` is the place that divides the original so. -/
theorem divides_placeOf (seen : source.text = passed ++ rest) :
    Divides source.original passed rest (source.placeOf rest) := by
  have index : source.text.length - rest.length = passed.length := by
    rw [seen, List.length_append, Nat.add_sub_cancel]
  rw [placeOf, index]
  exact divides_placesInLines seen

end Source

end CListing
