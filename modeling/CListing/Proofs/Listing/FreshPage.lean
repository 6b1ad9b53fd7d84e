import CListing.Proofs.Listing.Carried
import CListing.Proofs.Listing.Greedy
import CListing.Proofs.Listing.Pages

/-!
# Lexemes on a fresh page

A forced end of line begins a page for what is pending. Whether all that was said is on that page
depends on what was written before: lines that overflowed, or were ended in between, stay behind.
-/

namespace CListing

/-- The line holds lexemes. -/
def Line.isCode (line : Line) : Bool :=
  line.origin = .code

theorem Line.isCode_of_isHeading {line : Line} (heading : line.isHeading = true) :
    line.isCode = false := by
  obtain ⟨origin, text⟩ := line
  cases origin <;> first | rfl | contradiction

/-- The lines of code among the lines are on one page, and the first of them stands right behind the
heading of that page. -/
structure OnFreshPage (lines : List Line) : Prop where
  present : lines.any (·.isCode) = true
  headed : (lines.takeWhile (!·.isCode)).getLast?.any (·.isHeading) = true
  together : ((lines.dropWhile (!·.isCode)).dropWhile (!·.isHeading)).any (·.isCode) = false

instance (lines : List Line) : Decidable (OnFreshPage lines) :=
  decidable_of_iff (_ = true ∧ _ = true ∧ _ = false)
    ⟨fun ⟨present, headed, together⟩ => ⟨present, headed, together⟩,
      fun ⟨present, headed, together⟩ => ⟨present, headed, together⟩⟩

section Split

variable {front back : List Line} {first heading row : Line}

theorem Line.isHeading_of_isCode {line : Line} (code : line.isCode = true) :
    line.isHeading = false := by
  cases found : line.isHeading with
  | false => rfl
  | true =>
    rw [Line.isCode_of_isHeading found] at code
    contradiction

/-- The lines up to the first one of code. -/
theorem exists_first_code {lines : List Line} (present : lines.any (·.isCode) = true) :
    ∃ front first back, lines = front ++ first :: back ∧
      front.any (·.isCode) = false ∧ first.isCode = true := by
  induction lines with
  | nil => contradiction
  | cons line lines ih =>
    cases code : line.isCode with
    | true => exact ⟨[], line, lines, rfl, rfl, code⟩
    | false =>
      rw [List.any_cons, code, Bool.false_or] at present
      obtain ⟨front, first, back, split, none, begins⟩ := ih present
      exact ⟨line :: front, first, back, by rw [split, List.cons_append], by simp [code, none],
        begins⟩

variable (none : front.any (·.isCode) = false) (begins : first.isCode = true)
include none begins

/-- The first line of code is behind a heading, and behind the next heading there is none. -/
theorem onFreshPage_split : OnFreshPage (front ++ first :: back) ↔
    front.getLast?.any (·.isHeading) = true ∧
      (back.dropWhile (!·.isHeading)).any (·.isCode) = false := by
  have passed : ∀ line ∈ front, (!line.isCode) = true := by
    simpa using none
  have before : (front ++ first :: back).takeWhile (!·.isCode) = front := by
    rw [List.takeWhile_append_of_pos passed]
    simp [begins]
  have behind : ((front ++ first :: back).dropWhile (!·.isCode)).dropWhile (!·.isHeading) =
      back.dropWhile (!·.isHeading) := by
    rw [List.dropWhile_append_of_pos passed]
    simp [begins, Line.isHeading_of_isCode begins]
  constructor
  · rintro ⟨_, headed, together⟩
    rw [before] at headed
    rw [behind] at together
    exact ⟨headed, together⟩
  · rintro ⟨headed, together⟩
    exact ⟨by simp [begins], by rwa [before], by rwa [behind]⟩

end Split

/-! ## A heading and a line behind the lines -/

section Forced

variable {shown : List Line} {heading row : Line} (isHeading : heading.isHeading = true)
include isHeading

/-- With no code before it, a line behind a heading is on a fresh page. -/
theorem onFreshPage_of_nothing (nothing : shown.any (·.isCode) = false) (code : row.isCode = true) :
    OnFreshPage (shown ++ [heading, row]) := by
  have none : (shown ++ [heading]).any (·.isCode) = false := by
    simp [nothing, Line.isCode_of_isHeading isHeading]
  rw [show shown ++ [heading, row] = (shown ++ [heading]) ++ row :: [] by simp,
    onFreshPage_split none code]
  simp [isHeading]

/-- A line behind a heading is not on the page of a line before that heading. -/
theorem not_onFreshPage_of_written (written : shown.any (·.isCode) = true)
    (code : row.isCode = true) : ¬ OnFreshPage (shown ++ [heading, row]) := by
  obtain ⟨front, first, back, rfl, none, begins⟩ := exists_first_code written
  rw [List.append_assoc, List.cons_append, onFreshPage_split none begins]
  rintro ⟨_, together⟩
  rw [List.dropWhile_append, List.dropWhile_cons_of_neg (by simp [isHeading])] at together
  split at together <;> simp [code] at together

/-- A heading behind the lines does not matter. -/
theorem onFreshPage_append_heading : OnFreshPage (shown ++ [heading]) ↔ OnFreshPage shown := by
  have noCode := Line.isCode_of_isHeading isHeading
  cases written : shown.any (·.isCode) with
  | false =>
    constructor
    · rintro ⟨present, _, _⟩
      simp [written, noCode] at present
    · rintro ⟨present, _, _⟩
      rw [written] at present
      contradiction
  | true =>
    obtain ⟨front, first, back, rfl, none, begins⟩ := exists_first_code written
    rw [List.append_assoc, List.cons_append, onFreshPage_split none begins,
      onFreshPage_split none begins, List.dropWhile_append,
      List.dropWhile_cons_of_neg (by simp [isHeading])]
    split
    · rename_i empty
      rw [List.isEmpty_iff.mp empty]
      simp [noCode]
    · simp [noCode]

end Forced

/-- The command does no more than to write the pending line and perhaps one of a directive. -/
def Command.endsLine : Command → Bool
  | .endLine forced => !forced
  | .directive _ => true
  | _ => false

theorem Command.isSteady_of_endsLine {command : Command} (ends : command.endsLine = true) :
    command.isSteady = true := by
  cases command <;> first | exact ends | rfl | contradiction

namespace Listing

variable {listing : Listing} {count : Nat}

/-! ## Counting the lines of code -/

/-- The number of lines of code. -/
def codeLines (listing : Listing) : Nat :=
  listing.lines.toList.countP (·.isCode)

theorem codeLines_le_run (listing : Listing) (script : List Command) :
    listing.codeLines ≤ (listing.run script).codeLines :=
  (isPrefix_run listing script).sublist.countP_le

theorem codeLines_le_apply (listing : Listing) (command : Command) :
    listing.codeLines ≤ (listing.apply command).codeLines :=
  codeLines_le_run listing [command]

theorem codeLines_flush (listing : Listing) : listing.flush.codeLines = listing.codeLines + 1 := by
  have heading (text : List Char) : Line.isCode ⟨.heading listing.nextPage, text⟩ = false := rfl
  have code (text : List Char) : Line.isCode ⟨.code, text⟩ = true := rfl
  unfold codeLines flush writeLine makeRoom
  dsimp only
  split <;> simp [newPage, heading, code]

/-- The pending line is written when it is ended. -/
theorem codeLines_endLine (pending : listing.pending ≠ []) :
    (listing.endLine false).codeLines = listing.codeLines + 1 := by
  have written : listing.endLine false = listing.flush := if_neg (by simpa using pending)
  rw [written, codeLines_flush]

/-- More lines of code are written than so many, or will be when the pending line is ended. -/
def Outgrows (count : Nat) (listing : Listing) : Prop :=
  count < listing.codeLines ∨ count ≤ listing.codeLines ∧ listing.pending ≠ []

theorem Outgrows.endLine (outgrows : listing.Outgrows count) :
    count < (listing.endLine false).codeLines := by
  rcases outgrows with more | ⟨enough, pending⟩
  · exact Nat.lt_of_lt_of_le more (codeLines_le_apply listing (.endLine false))
  · rw [codeLines_endLine pending]
    exact Nat.lt_succ_of_le enough

theorem outgrows_append (enough : count ≤ listing.codeLines) {lexeme : List Char}
    (nonempty : lexeme ≠ []) (spacing : Spacing) :
    (listing.append lexeme spacing).Outgrows count := by
  refine Or.inr ⟨Nat.le_trans enough (codeLines_le_apply listing (.append lexeme spacing)), ?_⟩
  simp [Listing.append, nonempty]

theorem Outgrows.apply_of_endsLine (outgrows : listing.Outgrows count) {command : Command}
    (ends : command.endsLine = true) : count < (listing.apply command).codeLines := by
  cases command with
  | endLine forced =>
    obtain rfl : forced = false := by simpa [Command.endsLine] using ends
    exact outgrows.endLine
  | directive text =>
    exact Nat.lt_of_lt_of_le outgrows.endLine
      ((isPrefix_writeLine _ .directive text false).sublist.countP_le)
  | _ => contradiction

/-- Lines are written at the first command that ends one. -/
theorem Outgrows.run_of_endsLine (outgrows : listing.Outgrows count) {script : List Command}
    (ends : ∀ command ∈ script, command.endsLine = true) (nonempty : script ≠ []) :
    count < (listing.run script).codeLines := by
  cases script with
  | nil => contradiction
  | cons command script =>
    exact Nat.lt_of_lt_of_le (outgrows.apply_of_endsLine (ends command List.mem_cons_self))
      (codeLines_le_run _ script)

theorem Outgrows.run (outgrows : listing.Outgrows count) {script : List Command}
    (ends : ∀ command ∈ script, command.endsLine = true) : (listing.run script).Outgrows count := by
  cases script with
  | nil => exact outgrows
  | cons command script =>
    exact Or.inl (outgrows.run_of_endsLine ends (List.cons_ne_nil command script))

/-! ## Lexemes on one row -/

/-- A row with more marks needs more room. -/
theorem HasRoom.front {row : List Mark} (more : List Mark) (room : listing.HasRoom (row ++ more)) :
    listing.HasRoom row := by
  induction more generalizing row with
  | nil => rwa [List.append_nil] at room
  | cons mark more ih =>
    have longer : listing.HasRoom (row ++ [mark]) := by
      apply ih
      rwa [List.append_assoc, List.singleton_append]
    have grows := length_rowText_le row mark
    unfold HasRoom at longer ⊢
    omega

/-- The marks stand on one row. -/
def OneRow (listing : Listing) (marks : List Mark) : Prop :=
  marks.length = 1 ∨ marks ≠ [] ∧ listing.HasRoom marks

theorem OneRow.ne_nil {marks : List Mark} (oneRow : listing.OneRow marks) : marks ≠ [] := by
  rcases oneRow with single | ⟨nonempty, _⟩
  · rintro rfl
    contradiction
  · exact nonempty

/-- Marks on one row are a greedy filling of it, and no others. -/
theorem greedy_singleton_iff {marks : List Mark} :
    Greedy listing.HasRoom [marks] ↔ listing.OneRow marks := by
  constructor
  · intro greedy
    have nonempty := greedy.nonempty marks (by simp)
    rcases List.eq_nil_or_concat marks with rfl | ⟨front, last, rfl⟩
    · contradiction
    · rw [List.concat_eq_append] at greedy nonempty ⊢
      cases front with
      | nil => exact Or.inl rfl
      | cons head front =>
        exact Or.inr ⟨nonempty, greedy.grows _ (by simp) (head :: front) last [] rfl (by simp)⟩
  · intro oneRow
    refine ⟨by simpa using oneRow.ne_nil, ?_, .singleton _⟩
    intro row member front mark back split inside
    rw [List.mem_singleton.mp member] at split
    rcases oneRow with single | ⟨_, room⟩
    · have filled := List.length_pos_iff.mpr inside
      rw [split, List.length_append, List.length_cons] at single
      omega
    · rw [split, ← List.singleton_append, ← List.append_assoc] at room
      exact room.front back

/-- No line is written for marks exactly as long as they stand on one row. -/
theorem codeLines_run_marks_iff (empty : listing.pending = []) {marks : List Mark}
    (inked : ∀ mark ∈ marks, mark.Inked) (nonempty : marks ≠ []) :
    (listing.run (marks.map Mark.command)).codeLines = listing.codeLines ↔
      listing.OneRow marks := by
  obtain ⟨rows, whole, greedy, follows⟩ := (Filling.start empty).run inked
  rw [List.flatten_nil, List.nil_append] at whole
  have count : (listing.run (marks.map Mark.command)).codeLines =
      listing.codeLines + rows.dropLast.length := by
    have body (lines : List Line) :
        (lines.filter (!·.isHeading)).countP (·.isCode) = lines.countP (·.isCode) := by
      rw [List.countP_filter]
      refine List.countP_congr fun line _ => ?_
      cases code : line.isCode <;> simp [code, Line.isHeading_of_isCode]
    have all : ((rows.dropLast.map (.row 0)).map (PlannedLine.line listing)).countP (·.isCode) =
        rows.dropLast.length := by
      rw [List.map_map, List.countP_map]
      exact List.countP_eq_length.mpr fun _ _ => rfl
    have lines := congrArg (List.countP (·.isCode)) follows.lines
    rwa [body, List.countP_append, body, all] at lines
  rw [count, ← greedy_singleton_iff]
  constructor
  · intro same
    rcases List.eq_nil_or_concat rows with rfl | ⟨full, last, rfl⟩
    · exact absurd whole.symm nonempty
    · rw [List.concat_eq_append] at whole greedy same
      rw [List.dropLast_concat] at same
      obtain rfl : full = [] := List.length_eq_zero_iff.mp (by omega)
      obtain rfl : last = marks := by simpa using whole
      exact greedy
  · intro single
    rw [greedy.unique single (by simpa using whole)]
    rfl

/-! ## Forcing a page -/

/-- A forced end of line begins a page, unless the last page has no line yet. What is pending is
the first line on it. -/
theorem lines_endLine_forced (positive : 1 ≤ listing.layout.linesPerPage)
    (begun : 0 < listing.linesOnPage) :
    (listing.endLine true).lines.toList = listing.lines.toList ++
      listing.headingLine listing.nextPage ::
        if listing.pending = [] then []
        else [⟨.code, listing.lineText listing.pending true⟩] := by
  have forced : listing.endLine true = listing.newPage.flushAny := by
    simp [endLine, begun]
  have room : listing.newPage.makeRoom = listing.newPage := by
    have free : ¬ listing.layout.linesPerPage ≤ 0 := by omega
    simp [makeRoom, newPage, free]
  rw [forced, flushAny]
  split
  · rename_i empty
    have nothing : listing.pending = [] := by simpa [newPage] using empty
    rw [if_pos nothing, newPage, Array.toList_push]
    rfl
  · rename_i filled
    have pending : listing.pending ≠ [] := by simpa [newPage] using filled
    rw [if_neg pending, flush, writeLine, room, Array.toList_push, newPage, Array.toList_push,
      List.append_assoc]
    rfl

/-- A page without a line is not the last one of a filled listing. -/
theorem Filled.linesOnPage_pos (filled : listing.Filled) : 0 < listing.linesOnPage := by
  obtain ⟨positive, pages, paged, nonempty⟩ := filled
  rcases paged.filling with full | ⟨earlier, last, rfl, count⟩
  · omega
  · have inside := List.length_pos_iff.mpr (nonempty last (by simp))
    omega

/-! ## A page forced behind lexemes -/

/-- The commands append marks, and these stand on one row. -/
def SaidOnOneRow (listing : Listing) (said : List Command) : Prop :=
  ∃ marks, (∀ mark ∈ marks, mark.Inked) ∧ said = marks.map Mark.command ∧ listing.OneRow marks

/-- Behind a mark a line is pending. -/
theorem pending_run_marks {marks : List Mark} (inked : ∀ mark ∈ marks, mark.Inked)
    (nonempty : marks ≠ []) : (listing.run (marks.map Mark.command)).pending ≠ [] := by
  rcases List.eq_nil_or_concat marks with rfl | ⟨front, last, rfl⟩
  · contradiction
  · have filled : last.lexeme ≠ [] := (inked last (by simp)).1
    rw [List.concat_eq_append, List.map_append, run_append]
    simp [Mark.command, apply, Listing.append, filled]

/-- Nothing is pending behind commands that end lines, if nothing was before. -/
theorem pending_run_of_endsLine (empty : listing.pending = []) {script : List Command}
    (ends : ∀ command ∈ script, command.endsLine = true) : (listing.run script).pending = [] := by
  induction script generalizing listing with
  | nil => exact empty
  | cons command script ih =>
    refine ih ?_ fun later member => ends later (List.mem_cons_of_mem _ member)
    have here := ends command List.mem_cons_self
    cases command with
    | endLine forced => exact pending_endLine listing forced
    | directive text => exact pending_apply_directive text
    | _ => contradiction

/-- What was said is on the page that is forced behind it if it is on one row. Otherwise lines of it
were written before, and it is on a fresh page only if these were and nothing is pending. -/
theorem exists_endLine_forced {said : List Command} {shown : List Line}
    (filled : (listing.run said).Filled) (empty : listing.pending = [])
    (lines : (listing.run said).lines.toList = listing.lines.toList ++ shown)
    (either : (∃ marks : List Mark, marks ≠ [] ∧ (∀ mark ∈ marks, mark.Inked) ∧
        said = marks.map Mark.command) ∨ listing.codeLines < (listing.run said).codeLines) :
    ∃ written, ((listing.run said).endLine true).lines.toList = listing.lines.toList ++ written ∧
      (OnFreshPage written ↔ listing.SaidOnOneRow said ∨
        (listing.run said).pending = [] ∧ OnFreshPage shown) := by
  have forced := lines_endLine_forced filled.1 filled.linesOnPage_pos
  rw [lines, List.append_assoc] at forced
  have heading (number : Nat) : ((listing.run said).headingLine number).isHeading = true := rfl
  have count : (listing.run said).codeLines = listing.codeLines + shown.countP (·.isCode) := by
    rw [codeLines, lines, List.countP_append, codeLines]
  refine ⟨_, forced, ?_⟩
  cases written : shown.any (·.isCode) with
  | true =>
    have more : 0 < shown.countP (·.isCode) := by
      rw [List.countP_pos_iff]
      simpa using written
    have notOneRow : ¬ listing.SaidOnOneRow said := by
      rintro ⟨marks, inked, rfl, oneRow⟩
      have same := (codeLines_run_marks_iff empty inked oneRow.ne_nil).mpr oneRow
      omega
    split
    · rename_i ended
      rw [onFreshPage_append_heading (heading _)]
      simp [notOneRow, ended]
    · rename_i pending
      refine iff_of_false (not_onFreshPage_of_written (heading _) written rfl) ?_
      simp [notOneRow, pending]
  | false =>
    have none : shown.countP (·.isCode) = 0 := by
      rw [List.countP_eq_zero]
      simpa using written
    rcases either with ⟨marks, nonempty, inked, rfl⟩ | more
    · rw [if_neg (pending_run_marks inked nonempty)]
      refine iff_of_true (onFreshPage_of_nothing (heading _) written rfl) (Or.inl ?_)
      exact ⟨marks, inked, rfl, (codeLines_run_marks_iff empty inked nonempty).mp (by omega)⟩
    · omega

end Listing

end CListing
