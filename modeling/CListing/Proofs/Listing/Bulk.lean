import CListing.Proofs.Formatter.Retold
import CListing.Proofs.Listing.Carried
import Mathlib.Algebra.GroupWithZero.Nat

/-!
# The bulk of a listing

The bulk of a text is the number of characters in its lines, page headings left out. It does not
depend on where the pages begin. So two listings whose scripts have different lines for the
directives and are the same otherwise differ in bulk by these lines.
-/

namespace CListing

namespace Source

/-- The number of characters in the lines that are no headings. -/
def bulk (text : List Char) : Nat :=
  ((splitAfter (· == '\n') text).map fun line =>
    if Heading.matches? line then 0 else line.length).sum

/-- The lines before a line feed and those behind it count one by one. -/
theorem bulk_append_feed (text rest : List Char) :
    bulk (text ++ '\n' :: rest) = bulk (text ++ ['\n']) + bulk rest := by
  unfold bulk
  rw [splitAfter_append_feed, splitAfter_append_feed text [], List.map_append, List.sum_append]
  simp [splitAfter]

theorem bulk_line {line : List Char} (plain : '\n' ∉ line) :
    bulk (line ++ ['\n']) =
      if Heading.matches? (line ++ ['\n']) then 0 else line.length + 1 := by
  unfold bulk
  rw [splitAfter_append plain]
  simp [splitAfter]

theorem bulk_renderLines (lines : List Line) :
    bulk (Listing.renderLines lines) = (lines.map fun line => bulk (line.text ++ ['\n'])).sum := by
  induction lines with
  | nil => rfl
  | cons line lines ih =>
    rw [Listing.renderLines, List.flatMap_cons, List.append_assoc, List.singleton_append,
      bulk_append_feed, List.map_cons, List.sum_cons, ← ih]
    rfl

/-- A page heading adds nothing. -/
theorem bulk_heading {name : List Char} (plain : '\n' ∉ name) (width : Int) (number : Nat) :
    bulk (Heading.text name width number ++ ['\n']) = 0 := by
  rw [bulk_line (Heading.not_mem_text plain width number),
    if_pos (Heading.matches?_text plain width number)]

end Source

namespace Listing

/-- The bulk of the lines written. -/
def bulk (listing : Listing) : Nat :=
  Source.bulk listing.render

section Lines

variable (listing : Listing)

theorem bulk_push (longer : Listing) {line : Line}
    (lines : longer.lines = listing.lines.push line) :
    longer.bulk = listing.bulk + Source.bulk (line.text ++ ['\n']) := by
  rw [bulk, render, lines, Array.toList_push, Source.bulk_renderLines, List.map_append,
    List.sum_append, ← Source.bulk_renderLines]
  simp [bulk, render]

theorem bulk_newPage (plainName : '\n' ∉ listing.name) : listing.newPage.bulk = listing.bulk := by
  rw [bulk_push listing listing.newPage rfl, Source.bulk_heading plainName, Nat.add_zero]

theorem bulk_makeRoom (plainName : '\n' ∉ listing.name) : listing.makeRoom.bulk = listing.bulk := by
  unfold makeRoom
  split
  · exact bulk_newPage listing plainName
  · rfl

theorem bulk_writeLine (plainName : '\n' ∉ listing.name) (origin : Line.Origin) (text : List Char)
    (indented : Bool) :
    (listing.writeLine origin text indented).bulk =
      listing.bulk + Source.bulk (listing.lineText text indented ++ ['\n']) := by
  rw [← bulk_makeRoom listing plainName, ← lineText_makeRoom]
  exact bulk_push listing.makeRoom (listing.writeLine origin text indented) rfl

end Lines

end Listing

/-- Two listings in the making that go on alike. Each has lines of directives that the other one has
not: `own` is the bulk of those in the first listing, `other` of those in the second. -/
structure Parallel (first second : Listing) (own other : Nat) : Prop where
  layout : second.layout = first.layout
  name : second.name = first.name
  plainName : '\n' ∉ first.name
  pending : second.pending = first.pending
  indentation : second.indentation = first.indentation
  bulk : first.bulk + other = second.bulk + own

namespace Parallel

variable {first second : Listing} {own other : Nat}

theorem refl {listing : Listing} (plainName : '\n' ∉ listing.name) :
    Parallel listing listing 0 0 :=
  ⟨rfl, rfl, plainName, rfl, rfl, rfl⟩

theorem symm (parallel : Parallel first second own other) : Parallel second first other own where
  layout := parallel.layout.symm
  name := parallel.name.symm
  plainName := by
    rw [parallel.name]
    exact parallel.plainName
  pending := parallel.pending.symm
  indentation := parallel.indentation.symm
  bulk := parallel.bulk.symm

theorem lineText (parallel : Parallel first second own other) (text : List Char)
    (indented : Bool) : second.lineText text indented = first.lineText text indented := by
  unfold Listing.lineText Listing.indentText
  rw [parallel.layout, parallel.indentation]

/-- A page that begins in one listing alone makes no difference. -/
theorem newPage_left (parallel : Parallel first second own other) :
    Parallel first.newPage second own other where
  layout := parallel.layout
  name := parallel.name
  plainName := parallel.plainName
  pending := parallel.pending
  indentation := parallel.indentation
  bulk := by
    rw [Listing.bulk_newPage first parallel.plainName]
    exact parallel.bulk

theorem newPage_right (parallel : Parallel first second own other) :
    Parallel first second.newPage own other :=
  parallel.symm.newPage_left.symm

theorem writeLine (parallel : Parallel first second own other) (origin : Line.Origin)
    (text : List Char) (indented : Bool) :
    Parallel (first.writeLine origin text indented) (second.writeLine origin text indented)
      own other where
  layout := by
    rw [Listing.layout_writeLine, Listing.layout_writeLine, parallel.layout]
  name := by
    rw [Listing.name_writeLine, Listing.name_writeLine, parallel.name]
  plainName := by
    rw [Listing.name_writeLine]
    exact parallel.plainName
  pending := by
    rw [Listing.pending_writeLine, Listing.pending_writeLine, parallel.pending]
  indentation := by
    rw [Listing.indentation_writeLine, Listing.indentation_writeLine, parallel.indentation]
  bulk := by
    have sum := parallel.bulk
    rw [Listing.bulk_writeLine first parallel.plainName,
      Listing.bulk_writeLine second parallel.symm.plainName, parallel.lineText]
    omega

/-- The pending line may be replaced in both. -/
theorem withPending (parallel : Parallel first second own other) (pending : List Char) :
    Parallel { first with pending := pending } { second with pending := pending } own other :=
  ⟨parallel.layout, parallel.name, parallel.plainName, rfl, parallel.indentation, parallel.bulk⟩

theorem flush (parallel : Parallel first second own other) :
    Parallel first.flush second.flush own other := by
  have written := parallel.writeLine .code first.pending true
  unfold Listing.flush
  rw [parallel.pending]
  exact written.withPending []

theorem flushAny (parallel : Parallel first second own other) :
    Parallel first.flushAny second.flushAny own other := by
  unfold Listing.flushAny
  rw [parallel.pending]
  split
  · exact parallel
  · exact parallel.flush

theorem endLine (parallel : Parallel first second own other) (forced : Bool) :
    Parallel (first.endLine forced) (second.endLine forced) own other := by
  unfold Listing.endLine
  apply flushAny
  split <;> split
  · exact parallel.newPage_left.newPage_right
  · exact parallel.newPage_left
  · exact parallel.newPage_right
  · exact parallel

theorem drawn (parallel : Parallel first second own other) (spacing : Spacing) :
    Parallel (first.drawn spacing) (second.drawn spacing) own other := by
  unfold Listing.drawn Listing.dropSeparator
  rw [parallel.pending]
  split
  · split
    · exact parallel.withPending _
    · exact parallel
  · exact parallel

theorem append (parallel : Parallel first second own other) (lexeme : List Char)
    (spacing : Spacing) :
    Parallel (first.append lexeme spacing) (second.append lexeme spacing) own other := by
  have drawn := parallel.drawn spacing
  have sameWidth : (second.drawn spacing).overflows lexeme =
      (first.drawn spacing).overflows lexeme := by
    unfold Listing.overflows
    rw [drawn.layout, drawn.indentation, drawn.pending]
  rw [Listing.append_eq_drawn, Listing.append_eq_drawn]
  dsimp only
  rw [drawn.pending, sameWidth]
  split
  · exact drawn.flush.withPending _
  · rw [drawn.pending]
    exact drawn.withPending _

/-- The same command keeps what the listings differ in. -/
theorem apply (parallel : Parallel first second own other) (command : Command) :
    Parallel (first.apply command) (second.apply command) own other := by
  obtain ⟨layout, name, plainName, pending, indentation, bulk⟩ := parallel
  have parallel : Parallel first second own other :=
    ⟨layout, name, plainName, pending, indentation, bulk⟩
  cases command with
  | append lexeme spacing => exact parallel.append lexeme spacing
  | indent =>
    refine ⟨layout, name, plainName, pending, ?_, bulk⟩
    simp [Listing.apply, layout, indentation]
  | unindent =>
    refine ⟨layout, name, plainName, pending, ?_, bulk⟩
    simp [Listing.apply, layout, indentation]
  | endLine forced => exact parallel.endLine forced
  | skipLine => exact (parallel.endLine false).writeLine .gap [] true
  | newPage => exact parallel.newPage_left.newPage_right
  | endPage => exact ⟨layout, name, plainName, pending, indentation, bulk⟩
  | directive text => exact (parallel.endLine false).writeLine .directive text false
  | report text => exact parallel.writeLine .report text false
  | write text indented => exact parallel.writeLine .plain text indented

end Parallel

/-! ## Directives -/

/-- The bulk of a line of a directive behind the given margin. -/
def printedBulk (margin : Int) (line : List Char) : Nat :=
  Source.bulk (printed margin line ++ ['\n'])

/-- The bulk of a directive behind the given margin. -/
def Item.bulk (margin : Int) (item : Item) : Nat :=
  (item.lines.map (printedBulk margin)).sum

namespace Parallel

variable {first second : Listing} {own other : Nat}

theorem directive_left (parallel : Parallel first second own other) (empty : first.pending = [])
    {line : List Char} (trimmed : Text.trimEnd line = line) :
    Parallel (first.apply (.directive line)) second
      (own + printedBulk first.layout.leftMargin line) other where
  layout := by
    rw [Listing.layout_apply_directive empty, parallel.layout]
  name := by
    rw [Listing.name_apply_directive empty, parallel.name]
  plainName := by
    rw [Listing.name_apply_directive empty]
    exact parallel.plainName
  pending := by
    rw [Listing.pending_apply_directive, parallel.pending, empty]
  indentation := by
    rw [Listing.apply, Listing.endLine_of_nil empty, Listing.indentation_writeLine,
      parallel.indentation]
  bulk := by
    have sum := parallel.bulk
    rw [Listing.apply, Listing.endLine_of_nil empty,
      Listing.bulk_writeLine first parallel.plainName, Listing.lineText_of_trimmed trimmed,
      printedBulk]
    omega

/-- Lines of a directive come to the first listing alone. -/
theorem directives_left (parallel : Parallel first second own other) (empty : first.pending = [])
    {lines : List (List Char)} (trimmed : ∀ line ∈ lines, Text.trimEnd line = line) :
    Parallel (first.run (lines.map .directive)) second
      (own + (lines.map (printedBulk first.layout.leftMargin)).sum) other := by
  induction lines generalizing first own with
  | nil => exact parallel
  | cons line lines ih =>
    have begun := parallel.directive_left empty (trimmed line List.mem_cons_self)
    have written := ih begun (Listing.pending_apply_directive line) fun next member =>
      trimmed next (List.mem_cons_of_mem _ member)
    rw [Listing.layout_apply_directive empty, Nat.add_assoc] at written
    rw [List.map_cons, List.map_cons, List.sum_cons, Listing.run_cons]
    exact written

/-- A directive comes to each listing, not the same one. -/
theorem commands (parallel : Parallel first second own other) {item changed : Item}
    (trimmed : ∀ line ∈ item.lines, Text.trimEnd line = line)
    (changedTrimmed : ∀ line ∈ changed.lines, Text.trimEnd line = line) :
    Parallel (first.run item.commands) (second.run changed.commands)
      (own + item.bulk first.layout.leftMargin) (other + changed.bulk first.layout.leftMargin) := by
  have ended := parallel.endLine false
  have left := ended.directives_left (Listing.pending_endLine first false) trimmed
  have both := left.symm.directives_left (Listing.pending_endLine second false) changedTrimmed
  rw [Listing.layout_endLine, Listing.layout_endLine, parallel.layout] at both
  exact both.symm

/-- Scripts that differ in their directives make listings that differ in bulk by these. -/
theorem run {change : Item → Item} {script retold : List Command} {directives : List Item}
    (told : Retold change script retold directives)
    (trimmed : ∀ item ∈ directives, (∀ line ∈ item.lines, Text.trimEnd line = line) ∧
      ∀ line ∈ (change item).lines, Text.trimEnd line = line)
    (parallel : Parallel first second own other) :
    Parallel (first.run script) (second.run retold)
      (own + (directives.map (Item.bulk first.layout.leftMargin)).sum)
      (other + (directives.map fun item => (change item).bulk first.layout.leftMargin).sum) := by
  induction told generalizing first second own other with
  | nil => exact parallel
  | @command command script retold directives later ih =>
    have rest := ih trimmed (parallel.apply command)
    rwa [Listing.layout_apply] at rest
  | @directive item script retold directives later ih =>
    obtain ⟨itemTrimmed, changedTrimmed⟩ := trimmed item List.mem_cons_self
    have rest := ih (fun next member => trimmed next (List.mem_cons_of_mem _ member))
      (parallel.commands itemTrimmed changedTrimmed)
    rw [Listing.layout_run, Nat.add_assoc, Nat.add_assoc] at rest
    rw [Listing.run_append, Listing.run_append, List.map_cons, List.map_cons, List.sum_cons,
      List.sum_cons]
    exact rest

end Parallel

/-! ## Directives that come back -/

theorem printedBulk_nil (margin : Int) : printedBulk margin [] = 1 :=
  rfl

/-- Behind a margin nothing looks like a heading. -/
theorem matches?_printed_of_pos {margin : Int} (positive : 0 < margin) (line : List Char) :
    Heading.matches? (printed margin line ++ ['\n']) = false := by
  cases heading : Heading.matches? (printed margin line ++ ['\n']) with
  | false => rfl
  | true =>
    have begins := Heading.head?_of_matches? heading
    obtain ⟨width, rfl⟩ := Int.eq_succ_of_zero_lt positive
    unfold printed at begins
    split at begins
    · simp at begins
    · simp [spaces, List.replicate_succ] at begins

section Line

variable {line : List Char} (margin : Int) (plain : '\n' ∉ line)
include plain

theorem printedBulk_of_heading (heading : Heading.matches? (printed margin line ++ ['\n']) = true) :
    printedBulk margin line = 0 := by
  rw [printedBulk, Source.bulk_line (not_mem_printed margin plain), if_pos heading]

theorem printedBulk_of_not_heading
    (noHeading : Heading.matches? (printed margin line ++ ['\n']) = false) :
    printedBulk margin line = (printed margin line).length + 1 := by
  rw [printedBulk, Source.bulk_line (not_mem_printed margin plain), if_neg (by simp [noHeading])]

/-- A line comes back as it was, or else bulkier: as an empty line in the place of a heading, or
behind one more margin. -/
theorem printedBulk_reread :
    reread margin line = line ∨
      printedBulk margin line < printedBulk margin (reread margin line) := by
  cases heading : Heading.matches? (printed margin line ++ ['\n']) with
  | true =>
    right
    have empty : reread margin line = [] := if_pos heading
    rw [printedBulk_of_heading margin plain heading, empty, printedBulk_nil]
    exact Nat.zero_lt_one
  | false =>
    have same : reread margin line = printed margin line := if_neg (by simp [heading])
    by_cases empty : line = []
    · left
      rw [same, empty]
      rfl
    by_cases flush : margin ≤ 0
    · left
      rw [same, printed, if_neg empty, (spaces_eq_nil_iff margin).mpr flush, List.nil_append]
    · right
      have positive := Int.not_le.mp flush
      have behind : printed margin line = spaces margin ++ line := if_neg empty
      have nonempty : printed margin line ≠ [] := by
        rw [behind]
        exact List.append_ne_nil_of_right_ne_nil _ empty
      have again : printed margin (printed margin line) = spaces margin ++ printed margin line :=
        if_neg nonempty
      rw [same, printedBulk_of_not_heading margin plain heading,
        printedBulk_of_not_heading margin (not_mem_printed margin plain)
          (matches?_printed_of_pos positive _), again, List.length_append, spaces,
        List.length_replicate]
      omega

end Line

/-- If no change makes an element lighter and none leaves it as heavy as it was, then the elements
together stay the same or get heavier. -/
theorem map_eq_or_sum_lt {α : Type} {change : α → α} {weight : α → Nat} {elements : List α}
    (each : ∀ element ∈ elements,
      change element = element ∨ weight element < weight (change element)) :
    elements.map change = elements ∨
      (elements.map weight).sum < ((elements.map change).map weight).sum := by
  induction elements with
  | nil => exact Or.inl rfl
  | cons element elements ih =>
    have later := ih fun other member => each other (List.mem_cons_of_mem _ member)
    simp only [List.map_cons, List.sum_cons]
    rcases each element List.mem_cons_self with same | heavier
    · rcases later with sameRest | heavierRest
      · left
        rw [same, sameRest]
      · right
        rw [same]
        exact Nat.add_lt_add_left heavierRest _
    · right
      rcases later with sameRest | heavierRest
      · rw [sameRest]
        exact Nat.add_lt_add_right heavier _
      · exact Nat.add_lt_add heavier heavierRest

namespace Item

/-- A directive comes back as it was, or else bulkier. -/
theorem bulk_reread {item : Item} (proper : item.Proper) (directive : item.isDirective = true)
    (margin : Int) :
    item.reread margin = item ∨ item.bulk margin < (item.reread margin).bulk margin := by
  obtain ⟨_, ⟨start, others, lines⟩, plain, _⟩ := proper.isDirective_lines directive
  have each (line : List Char) (member : line ∈ others) :=
    printedBulk_reread margin (plain line (by rw [lines]; exact List.mem_cons_of_mem _ member))
  rw [reread_eq_self_iff_lines proper directive, bulk, bulk, lines_reread proper directive,
    rereadLines, lines]
  rcases map_eq_or_sum_lt each with same | bulkier
  · cases dangles : item.dangles with
    | false =>
      left
      simp [same]
    | true =>
      right
      simp [same, printedBulk_nil]
  · right
    simp only [List.map_cons, List.map_append, List.cons_append, List.sum_cons, List.sum_append]
    omega

end Item

end CListing
