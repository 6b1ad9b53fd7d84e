import CListing.Proofs.Listing.Draft
import CListing.Proofs.Source.ReadBack
import Mathlib.Data.List.Chain

/-!
# Rows filled greedily

Lexemes that are appended without a break between them form rows. A row grows as long as there is
room for it in a line, and the next lexeme begins another one. This determines the rows, and they
are the lines that are written, with headings between them where pages begin.
-/

namespace CListing

open Unicode

/-- The command that appends the mark. -/
def Mark.command (mark : Mark) : Command :=
  .append mark.lexeme mark.spacing

/-- The rows are not empty. There is room for each row, unless it is a single mark, and not for a
row together with the mark that begins the next one. -/
structure Greedy (room : List Mark → Prop) (rows : List (List Mark)) : Prop where
  nonempty : ∀ row ∈ rows, row ≠ []
  grows : ∀ row ∈ rows, ∀ front mark back, row = front ++ mark :: back → front ≠ [] →
    room (front ++ [mark])
  ends : rows.IsChain fun row next => ∀ mark ∈ next.head?, ¬ room (row ++ [mark])

namespace Greedy

variable {room : List Mark → Prop} {full rows : List (List Mark)} {last : List Mark} {mark : Mark}

theorem nil : Greedy room [] where
  nonempty := by simp
  grows := by simp
  ends := .nil

/-- A first row is begun. -/
theorem first (room : List Mark → Prop) (mark : Mark) : Greedy room [[mark]] where
  nonempty := by simp
  grows row member front other back split inside := by
    rw [List.mem_singleton.mp member] at split
    cases front with
    | nil => contradiction
    | cons head front => simp at split
  ends := .singleton _

/-- The last row grows. -/
theorem extend (greedy : Greedy room (full ++ [last])) (fits : room (last ++ [mark])) :
    Greedy room (full ++ [last ++ [mark]]) := by
  have filled : last ≠ [] := greedy.nonempty last (by simp)
  refine ⟨?_, ?_, ?_⟩
  · intro row member
    rcases List.mem_append.mp member with before | own
    · exact greedy.nonempty row (List.mem_append_left _ before)
    · rw [List.mem_singleton.mp own]
      simp
  · intro row member front other back split inside
    rcases List.mem_append.mp member with before | own
    · exact greedy.grows row (List.mem_append_left _ before) front other back split inside
    · rw [List.mem_singleton.mp own] at split
      rcases List.eq_nil_or_concat back with rfl | ⟨more, final, rfl⟩
      · rw [← split]
        exact fits
      · rw [List.concat_eq_append, ← List.cons_append, ← List.append_assoc] at split
        exact greedy.grows last (by simp) front other more (List.append_inj_left' split rfl) inside
  · obtain ⟨before, _, joint⟩ := List.isChain_append.mp greedy.ends
    refine List.isChain_append.mpr ⟨before, .singleton _, fun row isLast next isNext => ?_⟩
    obtain rfl : last ++ [mark] = next := Option.some.inj isNext
    intro other head
    rw [List.head?_append_of_ne_nil _ filled] at head
    exact joint row isLast last rfl other head

/-- The last row is full, and another one is begun. -/
theorem next (greedy : Greedy room (full ++ [last])) (noRoom : ¬ room (last ++ [mark])) :
    Greedy room (full ++ [last] ++ [[mark]]) := by
  have single := first room mark
  refine ⟨?_, ?_, ?_⟩
  · intro row member
    exact (List.mem_append.mp member).elim (greedy.nonempty row) (single.nonempty row)
  · intro row member
    exact (List.mem_append.mp member).elim (greedy.grows row) (single.grows row)
  · refine List.isChain_append.mpr ⟨greedy.ends, single.ends, fun row isLast next isNext => ?_⟩
    obtain rfl : [mark] = next := Option.some.inj isNext
    obtain rfl : last = row := by simpa using isLast
    intro other head
    obtain rfl : mark = other := Option.some.inj head
    exact noRoom

theorem tail {row : List Mark} (greedy : Greedy room (row :: rows)) : Greedy room rows where
  nonempty row member := greedy.nonempty row (List.mem_cons_of_mem _ member)
  grows row member := greedy.grows row (List.mem_cons_of_mem _ member)
  ends := greedy.ends.tail

/-- The first row ends before no mark that there is room for. -/
theorem not_longer {row longer : List Mark} {others : List (List Mark)}
    (greedy : Greedy room (row :: rows)) (other : Greedy room (longer :: others))
    {more : List Mark} (grown : longer = row ++ more)
    (rest : rows.flatten = more ++ others.flatten) :
    more = [] := by
  cases more with
  | nil => rfl
  | cons mark more =>
    have fits := other.grows longer List.mem_cons_self row mark more grown
      (greedy.nonempty row List.mem_cons_self)
    cases rows with
    | nil => contradiction
    | cons next rows =>
      have noRoom := (List.isChain_cons_cons.mp greedy.ends).1
      cases next with
      | nil => exact absurd rfl (greedy.nonempty [] (by simp))
      | cons head next =>
        obtain ⟨rfl, _⟩ := List.cons.inj rest
        exact absurd fits (noRoom head rfl)

/-- The marks determine the rows. -/
theorem unique {others : List (List Mark)} (greedy : Greedy room rows)
    (other : Greedy room others) (same : rows.flatten = others.flatten) : rows = others := by
  induction rows generalizing others with
  | nil =>
    cases others with
    | nil => rfl
    | cons row others =>
      have empty : row = [] := (List.append_eq_nil_iff.mp same.symm).1
      exact absurd empty (other.nonempty row List.mem_cons_self)
  | cons row rows ih =>
    cases others with
    | nil =>
      have empty : row = [] := (List.append_eq_nil_iff.mp same).1
      exact absurd empty (greedy.nonempty row List.mem_cons_self)
    | cons longer others =>
      rw [List.flatten_cons, List.flatten_cons] at same
      have firsts : row = longer ∧ rows.flatten = others.flatten := by
        rcases List.append_eq_append_iff.mp same with ⟨more, grown, rest⟩ | ⟨more, grown, rest⟩
        · obtain rfl := greedy.not_longer other grown rest
          exact ⟨by simpa using grown.symm, rest⟩
        · obtain rfl := other.not_longer greedy grown rest
          exact ⟨by simpa using grown, rest.symm⟩
      rw [firsts.1, ih greedy.tail other.tail firsts.2]

end Greedy

/-- The text of the line does not end in a blank. -/
def Line.Trimmed (line : Line) : Prop :=
  ∀ c ∈ line.text.getLast?, isBlank c = false

/-- A heading ends in a digit. -/
theorem Line.trimmed_heading (name : List Char) (width : Int) (number : Nat) :
    Line.Trimmed ⟨.heading number, Heading.text name width number⟩ := by
  intro c last
  have nonempty : Nat.toDigits 10 number ≠ [] := Nat.toDigits_ne_nil
  have digits : (toString number).toList = Nat.toDigits 10 number := by simp
  simp only [Heading.text, digits, List.getLast?_append_of_ne_nil _ nonempty] at last
  have decimal := Heading.isDecimal_of_mem_toDigits (List.mem_of_getLast? last)
  cases blank : isBlank c with
  | false => rfl
  | true =>
    have noDigit := isDigit_of_isBlank blank
    rw [isDigit, decimal] at noDigit
    contradiction

namespace Listing

theorem trimmed_lineText (listing : Listing) (origin : Line.Origin) (text : List Char)
    (indented : Bool) : Line.Trimmed ⟨origin, listing.lineText text indented⟩ := by
  intro c last
  cases kept : Text.trimEnd text with
  | nil => simp [lineText, kept] at last
  | cons first rest =>
    simp only [lineText, kept, List.getLast?_append_of_ne_nil _ (List.cons_ne_nil first rest)]
      at last
    rw [← kept] at last
    exact Text.isBlank_getLast_trimEnd last

variable {origin listing : Listing} {level : Nat} {row : List Mark} {planned : List PlannedLine}
variable {rows : List (List Mark)}

/-- The lines behind those at the start do not end in a blank. -/
def TrimmedBehind (start : List Line) (listing : Listing) : Prop :=
  ∃ added, listing.lines.toList = start ++ added ∧ ∀ line ∈ added, line.Trimmed

theorem TrimmedBehind.newPage {start : List Line} (behind : listing.TrimmedBehind start) :
    listing.newPage.TrimmedBehind start := by
  obtain ⟨added, lines, trimmed⟩ := behind
  have heading := Line.trimmed_heading listing.name listing.layout.headingWidth listing.nextPage
  refine ⟨added ++ [_], ?_, by simpa [or_imp, forall_and] using ⟨trimmed, heading⟩⟩
  rw [Listing.newPage, Array.toList_push, lines, List.append_assoc]

/-- Only lines that do not end in a blank are written. -/
theorem keptByPages_trimmedBehind (start : List Line) : KeptByPages (TrimmedBehind start) where
  pending behind _ := behind
  indentation behind _ := behind
  endPage behind := behind
  newPage behind := behind.newPage
  writeLine {listing} behind origin _ text indented := by
    have roomy : listing.makeRoom.TrimmedBehind start := by
      unfold makeRoom
      split
      · exact behind.newPage
      · exact behind
    obtain ⟨added, lines, trimmed⟩ := roomy
    refine ⟨added ++ [⟨origin, listing.makeRoom.lineText text indented⟩], ?_, ?_⟩
    · rw [writeLine, Array.toList_push, lines, List.append_assoc]
    · simpa [or_imp, forall_and] using
        ⟨trimmed, trimmed_lineText listing.makeRoom origin text indented⟩

/-- Trimmed, the pending line is written as before. -/
theorem flush_withPending {pending : List Char}
    (same : Text.trimEnd pending = Text.trimEnd listing.pending) :
    { listing with pending := pending }.flush = listing.flush := by
  unfold flush writeLine makeRoom
  dsimp only
  split <;> simp [lineText, same, newPage, indentText]

namespace Follows

/-- The blank that a joining mark takes away would not have been written. -/
theorem flush_drawn {front : List Mark} {last : Mark}
    (follows : listing.Follows origin ⟨level, front ++ [last], planned⟩) (mark : Mark) :
    (listing.drawn mark.spacing).flush = listing.flush := by
  have ink := (ink_rowText follows.inked (by simp)).2
  have blank : ∀ c ∈ last.between mark, isBlank c = true := by
    unfold Mark.between
    split
    · exact fun _ member => absurd member List.not_mem_nil
    · intro c member
      rw [List.mem_singleton.mp member]
      decide
  rw [follows.drawn_eq mark]
  apply flush_withPending
  rw [follows.pending, trimEnd_heldText follows.inked (by simp)]
  exact Text.trimEnd_append_blanks ink blank

/-- A mark that there is no room for ends the row and begins the next one. -/
theorem append_of_not_room (follows : listing.Follows origin ⟨level, row, planned⟩)
    (nonempty : row ≠ []) {mark : Mark} (inked : mark.Inked)
    (noRoom : ¬ listing.HasRoom (row ++ [mark])) :
    (listing.append mark.lexeme mark.spacing).Follows origin
      ⟨level, [mark], planned ++ [.row level row]⟩ := by
  rcases List.eq_nil_or_concat row with rfl | ⟨front, last, rfl⟩
  · contradiction
  rw [List.concat_eq_append] at follows nonempty noRoom ⊢
  have wide : (listing.drawn mark.spacing).overflows mark.lexeme = true := by
    rw [← Bool.not_eq_false, follows.overflows_drawn mark]
    exact noRoom
  have filled : (listing.drawn mark.spacing).pending.isEmpty = false := by
    simp [follows.drawn_eq mark, (ink_rowText follows.inked nonempty).1]
  -- The lexeme goes to the line that is empty once the row is written.
  have result : listing.append mark.lexeme mark.spacing =
      listing.flush.append mark.lexeme mark.spacing := by
    have rested : listing.flush.drawn mark.spacing = listing.flush := drawn_of_nil rfl mark.spacing
    rw [append_eq_drawn, append_eq_drawn listing.flush]
    dsimp only
    rw [rested, filled, wide, Bool.not_false, Bool.and_self, if_pos rfl, follows.flush_drawn mark]
    rfl
  rw [result]
  exact (follows.flush nonempty).begin inked

/-- What there is room for does not change while lines are filled at one depth. -/
theorem hasRoom_iff (follows : listing.Follows origin ⟨0, row, planned⟩) (marks : List Mark) :
    listing.HasRoom marks ↔ origin.HasRoom marks := by
  simp [HasRoom, follows.layout, follows.indentation]

theorem newPage {draft : Draft} (follows : listing.Follows origin draft) :
    listing.newPage.Follows origin draft := by
  refine ⟨follows.layout, follows.indentation, follows.pending, follows.inked, ?_⟩
  rw [← follows.lines, Listing.newPage, Array.toList_push, List.filter_append]
  exact List.append_nil _

end Follows

/-- The listing has come from `origin` by filling the rows. The last one is pending. -/
structure Filling (listing origin : Listing) (rows : List (List Mark)) : Prop where
  greedy : Greedy origin.HasRoom rows
  follows : listing.Follows origin ⟨0, rows.getLast?.getD [], rows.dropLast.map (.row 0)⟩

namespace Filling

theorem start (empty : origin.pending = []) : origin.Filling origin [] where
  greedy := Greedy.nil
  follows := Follows.start origin empty

/-- A mark goes to the last row or begins another one. -/
theorem append (filling : listing.Filling origin rows) {mark : Mark} (inked : mark.Inked) :
    ∃ more, more.flatten = rows.flatten ++ [mark] ∧
      (listing.apply mark.command).Filling origin more := by
  obtain ⟨greedy, follows⟩ := filling
  rcases List.eq_nil_or_concat rows with rfl | ⟨full, last, rfl⟩
  · exact ⟨[[mark]], rfl, Greedy.first _ mark, follows.begin inked⟩
  rw [List.concat_eq_append] at greedy follows ⊢
  rw [List.getLast?_concat, Option.getD_some, List.dropLast_concat] at follows
  by_cases room : origin.HasRoom (last ++ [mark])
  · refine ⟨full ++ [last ++ [mark]], by simp, greedy.extend room, ?_⟩
    rw [List.getLast?_concat, List.dropLast_concat]
    exact follows.append_of_room inked fun _ => (follows.hasRoom_iff _).mpr room
  · refine ⟨full ++ [last] ++ [[mark]], by simp, greedy.next room, ?_⟩
    rw [List.getLast?_concat, List.dropLast_concat, List.map_append]
    exact follows.append_of_not_room (greedy.nonempty last (by simp)) inked
      (fun here => room ((follows.hasRoom_iff _).mp here))

/-- Marks fill rows that hold them in their order. -/
theorem run (filling : listing.Filling origin rows) {marks : List Mark}
    (inked : ∀ mark ∈ marks, mark.Inked) :
    ∃ more, more.flatten = rows.flatten ++ marks ∧
      (listing.run (marks.map Mark.command)).Filling origin more := by
  induction marks generalizing listing rows with
  | nil => exact ⟨rows, (List.append_nil _).symm, filling⟩
  | cons mark marks ih =>
    obtain ⟨next, split, step⟩ := filling.append (inked mark List.mem_cons_self)
    obtain ⟨more, whole, later⟩ := ih step fun other member =>
      inked other (List.mem_cons_of_mem _ member)
    exact ⟨more, by rw [whole, split, List.append_assoc, List.singleton_append], later⟩

/-- The last row is written when the line is ended. -/
theorem endLine (filling : listing.Filling origin rows) :
    (listing.endLine false).Follows origin ⟨0, [], rows.map (.row 0)⟩ := by
  obtain ⟨greedy, follows⟩ := filling
  rcases List.eq_nil_or_concat rows with rfl | ⟨full, last, rfl⟩
  · rw [endLine_of_nil follows.pending]
    exact follows
  · rw [List.concat_eq_append] at greedy follows ⊢
    rw [List.getLast?_concat, Option.getD_some, List.dropLast_concat] at follows
    rw [List.map_append]
    exact follows.endLine (greedy.nonempty last (by simp))

/-- A page that is begun before does not matter to the rows. -/
theorem endLine_forced (filling : listing.Filling origin rows) (forced : Bool) :
    (listing.endLine forced).Follows origin ⟨0, [], rows.map (.row 0)⟩ := by
  have either : listing.endLine forced = listing.endLine false ∨
      listing.endLine forced = listing.newPage.endLine false := by
    cases forced with
    | false => exact Or.inl rfl
    | true =>
      by_cases begun : 0 < listing.linesOnPage
      · right
        simp [Listing.endLine, begun]
      · left
        simp [Listing.endLine, begun]
  rcases either with same | paged
  · rw [same]
    exact filling.endLine
  · rw [paged]
    exact Filling.endLine ⟨filling.greedy, filling.follows.newPage⟩

end Filling

/-- The line that a row makes at the current depth. -/
def rowLine (listing : Listing) (row : List Mark) : Line where
  origin := .code
  text := spaces listing.layout.leftMargin ++ listing.indentText ++ rowText row

/-- Lexemes that are appended to an empty line and ended there are written in rows, which hold the
lexemes in their order and are those of the greedy filling. No line that is written ends in a
blank. -/
theorem fills_greedily {listing : Listing} (empty : listing.pending = []) {marks : List Mark}
    (inked : ∀ mark ∈ marks, mark.Inked) (forced : Bool) :
    let filled := listing.run (marks.map Mark.command ++ [.endLine forced])
    ∃ rows added, rows.flatten = marks ∧ Greedy listing.HasRoom rows ∧
      (∀ others, Greedy listing.HasRoom others → others.flatten = marks → others = rows) ∧
      filled.lines.toList = listing.lines.toList ++ added ∧
      added.filter (!·.isHeading) = rows.map listing.rowLine ∧
      (∀ line ∈ added, line.Trimmed) ∧ filled.pending = [] := by
  intro filled
  obtain ⟨rows, whole, filling⟩ := (Filling.start empty).run inked
  have ended := filling.endLine_forced forced
  have same : filled = (listing.run (marks.map Mark.command)).endLine forced :=
    run_append listing (marks.map Mark.command) [.endLine forced]
  rw [← same] at ended
  obtain ⟨added, lines, trimmed⟩ :=
    (keptByPages_trimmedBehind listing.lines.toList).run
      ⟨[], (List.append_nil _).symm, by simp⟩
      (marks.map Mark.command ++ [.endLine forced])
  have determined : ∀ others, Greedy listing.HasRoom others → others.flatten = marks →
      others = rows := fun others greedy split =>
    greedy.unique filling.greedy (split.trans whole.symm)
  refine ⟨rows, added, whole, filling.greedy, determined, lines, ?_, trimmed, ended.pending⟩
  have body := ended.lines
  rw [lines, List.filter_append, List.append_cancel_left_eq, List.map_map] at body
  rw [body]
  apply List.map_congr_left
  intro row _
  simp [PlannedLine.line, rowLine, indentText]

/-- A semicolon that is joined fills the line to its width, and a lexeme that is too long for any
line has one of its own. -/
theorem fills_greedily_boundary :
    let listing := Listing.blank { lineWidth := 7 } []
    let marks : List Mark :=
      [⟨"abc".toList, .free⟩, ⟨"de".toList, .free⟩, ⟨[';'], .left⟩, ⟨"0123456789".toList, .free⟩,
        ⟨['('], .both⟩, ⟨['y'], .free⟩]
    listing.pending = [] ∧ (∀ mark ∈ marks, mark.Inked) ∧
      ∃ rows, rows.flatten = marks ∧ Greedy listing.HasRoom rows ∧
        rows.map rowText = ["abc de;".toList, "0123456789".toList, "(y".toList] := by
  intro listing marks
  have inked : ∀ mark ∈ marks, mark.Inked := by decide
  have empty : listing.pending = [] := rfl
  obtain ⟨rows, added, whole, greedy, _, lines, body, _⟩ := fills_greedily empty inked false
  have written : ((listing.run (marks.map Mark.command ++ [.endLine false])).lines.toList.filter
      (!·.isHeading)).map (·.text) =
      ["abc de;".toList, "0123456789".toList, "(y".toList] := by decide +kernel
  refine ⟨empty, inked, rows, whole, greedy, ?_⟩
  have start : listing.lines.toList = [] := rfl
  have plain : (fun row => (listing.rowLine row).text) = rowText := rfl
  rwa [lines, start, List.nil_append, body, List.map_map, Function.comp_def, plain] at written

end Listing

end CListing
