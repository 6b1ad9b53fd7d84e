import CListing.Proofs.Listing.Filling
import Mathlib.Tactic.Ring

/-!
# Drafts of listings

What a script amounts to where every row of lexemes fits in a line: rows at their levels, with empty
lines between them. A draft knows nothing of pages and widths. The listing that a script fills
follows the draft of the script, if every row of the draft fits; the lines are those of the draft,
apart from the headings between them.
-/

namespace CListing

open Unicode

/-- A lexeme and the spacing that it is written with. -/
structure Mark where
  lexeme : List Char
  spacing : Spacing
deriving DecidableEq, Repr

namespace Mark

/-- The lexeme is not empty and does not end in a blank. -/
structure Inked (mark : Mark) : Prop where
  nonempty : mark.lexeme ≠ []
  ends : mark.lexeme.getLast?.any isBlank = false

instance : DecidablePred Inked := fun mark =>
  decidable_of_iff (mark.lexeme ≠ [] ∧ mark.lexeme.getLast?.any isBlank = false)
    ⟨fun ⟨nonempty, ends⟩ => ⟨nonempty, ends⟩, fun ⟨nonempty, ends⟩ => ⟨nonempty, ends⟩⟩

/-- What stands between two neighbours in a row. -/
def between (first second : Mark) : List Char :=
  if first.spacing.joinsRight || second.spacing.joinsLeft then [] else [' ']

/-- What is kept behind a lexeme until the next one comes. -/
def separator (mark : Mark) : List Char :=
  if mark.spacing.joinsRight then [] else [' ']

end Mark

/-- The lexemes of a row in a line, with blanks between those neighbours that do not join. -/
def rowText : List Mark → List Char
  | [] => []
  | [mark] => mark.lexeme
  | first :: second :: rest => first.lexeme ++ first.between second ++ rowText (second :: rest)

/-- The pending line of a listing that holds the row. -/
def heldText (row : List Mark) : List Char :=
  rowText row ++ (row.getLast?.map Mark.separator).getD []

section Text

variable {row : List Mark} {last mark : Mark}

theorem rowText_append (row : List Mark) (last mark : Mark) :
    rowText (row ++ [last, mark]) =
      rowText (row ++ [last]) ++ last.between mark ++ mark.lexeme := by
  induction row with
  | nil => rfl
  | cons first row ih =>
    cases row with
    | nil => simp [rowText]
    | cons second rest =>
      simp only [List.cons_append, rowText] at ih ⊢
      rw [ih]
      simp

/-- A row is no longer than what it grows to. -/
theorem length_rowText_le (row : List Mark) (mark : Mark) :
    (rowText row).length ≤ (rowText (row ++ [mark])).length := by
  rcases List.eq_nil_or_concat row with rfl | ⟨front, last, rfl⟩
  · exact Nat.zero_le _
  · rw [List.concat_eq_append, List.append_assoc, List.singleton_append, rowText_append,
      List.append_assoc, List.length_append]
    exact Nat.le_add_right _ _

/-- A row ends as its last lexeme does. -/
theorem getLast?_rowText (row : List Mark) (inked : last.Inked) :
    (rowText (row ++ [last])).getLast? = last.lexeme.getLast? := by
  rcases List.eq_nil_or_concat row with rfl | ⟨front, before, rfl⟩
  · rfl
  · rw [List.concat_eq_append, List.append_assoc, List.singleton_append, rowText_append,
      List.getLast?_append_of_ne_nil _ inked.nonempty]

theorem heldText_append (row : List Mark) (last : Mark) :
    heldText (row ++ [last]) = rowText (row ++ [last]) ++ last.separator := by
  simp [heldText]

/-- A row with lexemes in it is not empty and does not end in a blank. -/
theorem ink_rowText (inked : ∀ mark ∈ row, mark.Inked) (nonempty : row ≠ []) :
    rowText row ≠ [] ∧ (rowText row).getLast?.any isBlank = false := by
  rcases List.eq_nil_or_concat row with rfl | ⟨front, last, rfl⟩
  · contradiction
  · rw [List.concat_eq_append] at inked ⊢
    have final := inked last (by simp)
    have ends := getLast?_rowText front final
    refine ⟨?_, by rw [ends]; exact final.ends⟩
    intro empty
    rw [empty] at ends
    exact final.nonempty (List.getLast?_eq_none_iff.mp ends.symm)

/-- Trimmed, the pending line is the row. -/
theorem trimEnd_heldText (inked : ∀ mark ∈ row, mark.Inked) (nonempty : row ≠ []) :
    Text.trimEnd (heldText row) = rowText row := by
  apply Text.trimEnd_append_blanks (ink_rowText inked nonempty).2
  intro c member
  rcases List.eq_nil_or_concat row with rfl | ⟨front, last, rfl⟩
  · contradiction
  · simp only [List.concat_eq_append, List.getLast?_append, List.getLast?_singleton,
      Option.some_or, Option.map_some, Option.getD_some, Mark.separator] at member
    split at member
    · contradiction
    · rw [List.mem_singleton.mp member]
      decide

end Text

/-- A line to be written: an empty one, or a row at a level. -/
inductive PlannedLine
  | gap
  | row (level : Nat) (marks : List Mark)
deriving DecidableEq, Repr

namespace PlannedLine

/-- The line as it is written by a listing whose level zero is the current depth. -/
def line (origin : Listing) : PlannedLine → Line
  | gap => { origin := .gap, text := [] }
  | row level marks =>
    { origin := .code
      text := spaces origin.layout.leftMargin ++
        spaces (max (origin.indentation + origin.layout.indentSize * level) 0) ++ rowText marks }

/-- The line is no longer than the line width. -/
def Fits (origin : Listing) (planned : PlannedLine) : Prop :=
  (planned.line origin).text.length ≤ origin.layout.lineWidth

instance (origin : Listing) (planned : PlannedLine) : Decidable (planned.Fits origin) :=
  inferInstanceAs (Decidable (_ ≤ _))

end PlannedLine

/-- What a script has come to: the level, the row that is being filled and the lines before it. -/
structure Draft where
  level : Nat := 0
  row : List Mark := []
  lines : List PlannedLine := []
deriving DecidableEq, Repr

namespace Draft

/-- What a command does to a draft. The level changes between rows only. -/
inductive Step : Draft → Command → Draft → Prop
  | append {level : Nat} {row : List Mark} {lines : List PlannedLine} {mark : Mark}
      (inked : mark.Inked) :
      Step ⟨level, row, lines⟩ (.append mark.lexeme mark.spacing) ⟨level, row ++ [mark], lines⟩
  | indent {level : Nat} {lines : List PlannedLine} :
      Step ⟨level, [], lines⟩ .indent ⟨level + 1, [], lines⟩
  | unindent {level : Nat} {lines : List PlannedLine} :
      Step ⟨level + 1, [], lines⟩ .unindent ⟨level, [], lines⟩
  | endLine {level : Nat} {row : List Mark} {lines : List PlannedLine} (nonempty : row ≠ []) :
      Step ⟨level, row, lines⟩ (.endLine false) ⟨level, [], lines ++ [.row level row]⟩
  | idle {level : Nat} {lines : List PlannedLine} :
      Step ⟨level, [], lines⟩ (.endLine false) ⟨level, [], lines⟩
  | skipLine {level : Nat} {lines : List PlannedLine} :
      Step ⟨level, [], lines⟩ .skipLine ⟨level, [], lines ++ [.gap]⟩

/-- What a script does to a draft. -/
inductive Run : Draft → List Command → Draft → Prop
  | nil {draft : Draft} : Run draft [] draft
  | cons {first second last : Draft} {command : Command} {script : List Command}
      (step : Step first command second) (later : Run second script last) :
      Run first (command :: script) last

theorem Run.append {first second third : Draft} {script more : List Command}
    (run : Run first script second) (later : Run second more third) :
    Run first (script ++ more) third := by
  induction run with
  | nil => exact later
  | cons step _ ih => exact Run.cons step (ih later)

theorem Step.run {first second : Draft} {command : Command} (step : Step first command second) :
    Run first [command] second :=
  Run.cons step Run.nil

/-- Every line of the draft fits, and so does the row that is being filled. -/
structure Fits (origin : Listing) (draft : Draft) : Prop where
  lines : ∀ planned ∈ draft.lines, planned.Fits origin
  row (nonempty : draft.row ≠ []) : (PlannedLine.row draft.level draft.row).Fits origin

variable {origin : Listing} {first second : Draft}

/-- What fits in the end fitted before. -/
theorem Step.fits {command : Command} (step : Step first command second)
    (fits : second.Fits origin) : first.Fits origin := by
  cases step with
  | @append _ row _ mark _ =>
    refine ⟨fits.lines, fun _ => ?_⟩
    have longer := fits.row (by simp)
    have grows := length_rowText_le row mark
    simp only [PlannedLine.Fits, PlannedLine.line, List.length_append] at longer ⊢
    omega
  | endLine nonempty =>
    refine ⟨fun planned member => fits.lines planned (List.mem_append_left _ member), fun _ => ?_⟩
    exact fits.lines _ (by simp)
  | skipLine =>
    refine ⟨fun planned member => fits.lines planned (List.mem_append_left _ member), ?_⟩
    exact fun contrary => absurd rfl contrary
  | _ => exact ⟨fits.lines, fun contrary => absurd rfl contrary⟩

theorem Run.fits {script : List Command} (run : Run first script second)
    (fits : second.Fits origin) : first.Fits origin := by
  induction run with
  | nil => exact fits
  | cons step _ ih => exact step.fits (ih fits)

end Draft

namespace Listing

/-- The listing has come from `origin` as the draft says. -/
structure Follows (listing origin : Listing) (draft : Draft) : Prop where
  layout : listing.layout = origin.layout
  indentation : listing.indentation =
    origin.indentation + origin.layout.indentSize * draft.level
  pending : listing.pending = heldText draft.row
  inked : ∀ mark ∈ draft.row, mark.Inked
  lines : listing.lines.toList.filter (!·.isHeading) =
    origin.lines.toList.filter (!·.isHeading) ++ draft.lines.map (·.line origin)

/-- There is room for the row in a line at the current depth. -/
def HasRoom (listing : Listing) (row : List Mark) : Prop :=
  listing.layout.leftMargin + max listing.indentation 0 + (rowText row).length ≤
    listing.layout.lineWidth

instance (listing : Listing) : DecidablePred listing.HasRoom :=
  fun _ => inferInstanceAs (Decidable (_ ≤ _))

/-- Room for a line is made without lines other than headings. -/
theorem filter_makeRoom (listing : Listing) :
    listing.makeRoom.lines.toList.filter (!·.isHeading) =
      listing.lines.toList.filter (!·.isHeading) := by
  unfold makeRoom
  split
  · rw [newPage, Array.toList_push, List.filter_append, List.filter_singleton]
    exact List.append_nil _
  · rfl

/-- A line is written behind the others. -/
theorem filter_writeLine (listing : Listing) {lineOrigin : Line.Origin}
    (body : lineOrigin.isBody = true) (text : List Char) (indented : Bool) :
    (listing.writeLine lineOrigin text indented).lines.toList.filter (!·.isHeading) =
      listing.lines.toList.filter (!·.isHeading) ++
        [⟨lineOrigin, listing.lineText text indented⟩] := by
  have counts := Line.isHeading_of_isBody body (listing.lineText text indented)
  rw [writeLine, Array.toList_push, List.filter_append, filter_makeRoom, lineText_makeRoom,
    List.filter_singleton, counts]
  rfl

variable {origin listing : Listing} {level : Nat} {row : List Mark} {planned : List PlannedLine}

namespace Follows

theorem start (origin : Listing) (empty : origin.pending = []) : origin.Follows origin {} where
  layout := rfl
  indentation := by simp
  pending := empty
  inked := by simp
  lines := by simp

/-- A mark that is to join has the blank before it taken away. -/
theorem drawn_eq {front : List Mark} {last : Mark}
    (follows : listing.Follows origin ⟨level, front ++ [last], planned⟩) (mark : Mark) :
    listing.drawn mark.spacing =
      { listing with pending := rowText (front ++ [last]) ++ last.between mark } := by
  have pending := follows.pending
  rw [heldText_append] at pending
  have ink := (ink_rowText follows.inked (by simp)).2
  have blank : last.separator = [] ∨ last.separator = [' '] := by
    unfold Mark.separator
    split
    · exact Or.inl rfl
    · exact Or.inr rfl
  have kept : (if mark.spacing.joinsLeft then [] else last.separator) = last.between mark := by
    cases left : mark.spacing.joinsLeft <;> simp [Mark.between, Mark.separator, left]
  rw [drawn_of_pending ink blank pending mark.spacing, kept]

/-- A mark overflows the pending row if there is no room for the row with it. -/
theorem overflows_drawn {front : List Mark} {last : Mark}
    (follows : listing.Follows origin ⟨level, front ++ [last], planned⟩) (mark : Mark) :
    (listing.drawn mark.spacing).overflows mark.lexeme = false ↔
      listing.HasRoom (front ++ [last] ++ [mark]) := by
  have lengths := congrArg List.length (rowText_append front last mark)
  simp only [List.length_append] at lengths
  rw [follows.drawn_eq mark, HasRoom, List.append_assoc, List.singleton_append, lengths]
  simp only [overflows, decide_eq_false_iff_not, List.length_append]
  omega

/-- A mark begins a row. -/
theorem begin (follows : listing.Follows origin ⟨level, [], planned⟩) {mark : Mark}
    (inked : mark.Inked) :
    (listing.append mark.lexeme mark.spacing).Follows origin ⟨level, [mark], planned⟩ := by
  have empty : listing.pending = [] := follows.pending
  have result : listing.append mark.lexeme mark.spacing =
      { listing with pending := heldText [mark] } := by
    rw [append_eq_drawn]
    dsimp only
    rw [drawn_of_nil empty, empty, List.isEmpty_nil, Bool.not_true, Bool.false_and,
      if_neg Bool.false_ne_true, empty]
    rfl
  rw [result]
  exact ⟨follows.layout, follows.indentation, rfl, by simpa using inked, follows.lines⟩

/-- A mark goes to the pending row if there is room for the row with it. -/
theorem append_of_room (follows : listing.Follows origin ⟨level, row, planned⟩) {mark : Mark}
    (inked : mark.Inked) (room : row ≠ [] → listing.HasRoom (row ++ [mark])) :
    (listing.append mark.lexeme mark.spacing).Follows origin ⟨level, row ++ [mark], planned⟩ := by
  rcases List.eq_nil_or_concat row with rfl | ⟨front, last, rfl⟩
  · exact follows.begin inked
  rw [List.concat_eq_append] at follows room ⊢
  have added : ∀ other ∈ front ++ [last] ++ [mark], other.Inked := by
    intro other member
    rcases List.mem_append.mp member with before | own
    · exact follows.inked other before
    · rwa [List.mem_singleton.mp own]
  have narrow := (follows.overflows_drawn mark).mpr (room (by simp))
  have result : listing.append mark.lexeme mark.spacing =
      { listing with pending := heldText (front ++ [last] ++ [mark]) } := by
    rw [append_eq_drawn, heldText_append]
    dsimp only
    rw [narrow, Bool.and_false, if_neg Bool.false_ne_true, follows.drawn_eq mark,
      List.append_assoc front, List.singleton_append, rowText_append]
    rfl
  rw [result]
  exact ⟨follows.layout, follows.indentation, rfl, added, follows.lines⟩

/-- A row that fits in a line has room there. -/
theorem hasRoom_of_fits (follows : listing.Follows origin ⟨level, row, planned⟩)
    {marks : List Mark} (fits : (PlannedLine.row level marks).Fits origin) :
    listing.HasRoom marks := by
  simp only [PlannedLine.Fits, PlannedLine.line, spaces, List.length_append,
    List.length_replicate] at fits
  simp only [HasRoom, follows.layout, follows.indentation]
  omega

/-- A mark goes to the pending row if the row fits with it. -/
theorem append (follows : listing.Follows origin ⟨level, row, planned⟩) {mark : Mark}
    (inked : mark.Inked) (fits : (PlannedLine.row level (row ++ [mark])).Fits origin) :
    (listing.append mark.lexeme mark.spacing).Follows origin ⟨level, row ++ [mark], planned⟩ :=
  follows.append_of_room inked fun _ => follows.hasRoom_of_fits fits

/-- The pending row becomes a line at its level. -/
theorem flush (follows : listing.Follows origin ⟨level, row, planned⟩) (nonempty : row ≠ []) :
    listing.flush.Follows origin ⟨level, [], planned ++ [.row level row]⟩ := by
  have ink := ink_rowText follows.inked nonempty
  have line : (⟨.code, listing.lineText listing.pending true⟩ : Line) =
      (PlannedLine.row level row).line origin := by
    have trimmed := trimEnd_heldText follows.inked nonempty
    rw [← follows.pending] at trimmed
    unfold lineText
    rw [trimmed]
    cases text : rowText row with
    | nil => exact absurd text ink.1
    | cons c rest =>
      simp [PlannedLine.line, indentText, follows.layout, follows.indentation, text]
  refine ⟨?_, ?_, rfl, by simp, ?_⟩
  · exact (layout_writeLine listing .code listing.pending true).trans follows.layout
  · exact (indentation_writeLine listing .code listing.pending true).trans follows.indentation
  · have written := filter_writeLine listing (show Line.Origin.code.isBody = true from rfl)
      listing.pending true
    rw [line, follows.lines, List.append_assoc] at written
    rw [List.map_append]
    exact written

theorem endLine (follows : listing.Follows origin ⟨level, row, planned⟩) (nonempty : row ≠ []) :
    (listing.endLine false).Follows origin ⟨level, [], planned ++ [.row level row]⟩ := by
  have filled : listing.pending.isEmpty = false := by
    rw [follows.pending, heldText]
    simp [(ink_rowText follows.inked nonempty).1]
  have result : listing.endLine false = listing.flush := by
    simp [Listing.endLine, flushAny, filled]
  rw [result]
  exact follows.flush nonempty

/-- An empty line is written between rows. -/
theorem skipLine (follows : listing.Follows origin ⟨level, [], planned⟩) :
    (listing.apply .skipLine).Follows origin ⟨level, [], planned ++ [.gap]⟩ := by
  have empty : listing.pending = [] := follows.pending
  rw [apply, endLine_of_nil empty]
  refine ⟨?_, ?_, (pending_writeLine listing .gap [] true).trans empty, by simp, ?_⟩
  · exact (layout_writeLine listing .gap [] true).trans follows.layout
  · exact (indentation_writeLine listing .gap [] true).trans follows.indentation
  · have written := filter_writeLine listing (show Line.Origin.gap.isBody = true from rfl) [] true
    rw [follows.lines, List.append_assoc] at written
    rw [List.map_append]
    exact written

end Follows

end Listing

namespace Draft

variable {origin listing : Listing} {first second : Draft}

/-- A command does to the listing what it does to the draft. -/
theorem Step.follows {command : Command} (step : Step first command second)
    (fits : second.Fits origin) (follows : listing.Follows origin first) :
    (listing.apply command).Follows origin second := by
  cases step with
  | append inked => exact follows.append inked (fits.row (by simp))
  | endLine nonempty => exact follows.endLine nonempty
  | idle =>
    rw [Listing.apply, Listing.endLine_of_nil follows.pending]
    exact follows
  | skipLine => exact follows.skipLine
  | indent =>
    obtain ⟨layout, indentation, pending, inked, lines⟩ := follows
    refine ⟨layout, ?_, pending, inked, lines⟩
    simp only [Listing.apply, layout, indentation]
    push_cast
    ring
  | unindent =>
    obtain ⟨layout, indentation, pending, inked, lines⟩ := follows
    refine ⟨layout, ?_, pending, inked, lines⟩
    simp only [Listing.apply, layout, indentation]
    push_cast
    ring

/-- If the draft of a script fits, the listing follows it. -/
theorem Run.follows {script : List Command} (run : Run first script second)
    (fits : second.Fits origin) (follows : listing.Follows origin first) :
    (listing.run script).Follows origin second := by
  induction run generalizing listing with
  | nil => exact follows
  | cons step later ih => exact ih fits (step.follows (later.fits fits) follows)

end Draft

end CListing
