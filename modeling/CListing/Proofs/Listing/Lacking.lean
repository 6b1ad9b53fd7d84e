import CListing.Proofs.Listing.Kept
import CListing.Proofs.Scan.Directive

/-!
# Characters that a listing lacks

A listing writes the texts of its commands, blanks and headings. So a character other than the blank
that none of the texts holds is in no line but the headings.
-/

namespace CListing.Listing

/-- No line holds the character, headings apart, and the pending line does not. -/
structure Lacks (listing : Listing) (c : Char) : Prop where
  lines : ∀ line ∈ listing.lines.toList, line.isHeading = false → c ∉ line.text
  pending : c ∉ listing.pending

theorem not_mem_spaces {c : Char} (ink : c ≠ ' ') (count : Int) : c ∉ spaces count :=
  fun member => ink (List.eq_of_mem_replicate member)

theorem not_mem_lineText (listing : Listing) {c : Char} (ink : c ≠ ' ') {text : List Char}
    (plain : c ∉ text) (indented : Bool) : c ∉ listing.lineText text indented := by
  have kept : c ∉ Text.trimEnd text := fun member =>
    plain ((Text.trimEnd_isPrefix text).subset member)
  unfold lineText
  split
  · simp
  · simp only [List.mem_append, not_or]
    refine ⟨⟨not_mem_spaces ink _, ?_⟩, kept⟩
    split
    · exact not_mem_spaces ink _
    · simp

namespace Lacks

variable {listing : Listing} {c : Char}

theorem blank (layout : Layout) (name : List Char) (c : Char) :
    (Listing.blank layout name).Lacks c :=
  ⟨by simp [Listing.blank], by simp [Listing.blank]⟩

theorem newPage (lacks : listing.Lacks c) : listing.newPage.Lacks c where
  lines := by
    intro line member body
    rw [Listing.newPage, Array.toList_push] at member
    rcases List.mem_append.mp member with before | heading
    · exact lacks.lines line before body
    · rw [List.mem_singleton.mp heading] at body
      contradiction
  pending := lacks.pending

theorem dropSeparator (lacks : listing.Lacks c) : listing.dropSeparator.Lacks c := by
  unfold Listing.dropSeparator
  split
  · exact ⟨lacks.lines, fun member => lacks.pending (List.dropLast_subset _ member)⟩
  · exact lacks

variable (lacks : listing.Lacks c) (ink : c ≠ ' ')
include lacks ink

theorem writeLine (origin : Line.Origin) {text : List Char} (plain : c ∉ text) (indented : Bool) :
    (listing.writeLine origin text indented).Lacks c := by
  have room : listing.makeRoom.Lacks c := by
    unfold makeRoom
    split
    · exact lacks.newPage
    · exact lacks
  refine ⟨?_, room.pending⟩
  intro line member body
  rw [Listing.writeLine, Array.toList_push] at member
  rcases List.mem_append.mp member with before | added
  · exact room.lines line before body
  · rw [List.mem_singleton.mp added]
    exact not_mem_lineText _ ink plain indented

theorem flush : listing.flush.Lacks c :=
  ⟨(lacks.writeLine ink .code lacks.pending true).lines, by simp [Listing.flush]⟩

theorem flushAny : listing.flushAny.Lacks c := by
  unfold Listing.flushAny
  split
  · exact lacks
  · exact lacks.flush ink

theorem endLine (forced : Bool) : (listing.endLine forced).Lacks c := by
  have begun :
      (if forced && 0 < listing.linesOnPage then listing.newPage else listing).Lacks c := by
    split
    · exact lacks.newPage
    · exact lacks
  exact begun.flushAny ink

theorem append {lexeme : List Char} (plain : c ∉ lexeme) (spacing : Spacing) :
    (listing.append lexeme spacing).Lacks c := by
  have drawn : (if spacing.joinsLeft then listing.dropSeparator else listing).Lacks c := by
    split
    · exact lacks.dropSeparator
    · exact lacks
  simp only [Listing.append]
  generalize (if spacing.joinsLeft then listing.dropSeparator else listing) = start at drawn ⊢
  have room : Lacks
      (if !start.pending.isEmpty && start.overflows lexeme then start.flush else start) c := by
    split
    · exact drawn.flush ink
    · exact drawn
  refine ⟨room.lines, ?_⟩
  simp only [List.mem_append, not_or]
  refine ⟨⟨room.pending, plain⟩, ?_⟩
  split
  · simp
  · simpa using ink

theorem apply {command : Command} (plain : c ∉ command.text) :
    (listing.apply command).Lacks c := by
  cases command with
  | append lexeme spacing => exact lacks.append ink plain spacing
  | indent => exact ⟨lacks.lines, lacks.pending⟩
  | unindent => exact ⟨lacks.lines, lacks.pending⟩
  | endLine forced => exact lacks.endLine ink forced
  | skipLine => exact (lacks.endLine ink false).writeLine ink .gap (by simp) true
  | newPage => exact lacks.newPage
  | endPage => exact ⟨lacks.lines, lacks.pending⟩
  | directive text => exact (lacks.endLine ink false).writeLine ink .directive plain false
  | report text => exact lacks.writeLine ink .report plain false
  | write text indented => exact lacks.writeLine ink .plain plain indented

/-- What no text of a script holds is in no line but the headings. -/
theorem run {script : List Command} (plain : ∀ command ∈ script, c ∉ command.text) :
    (listing.run script).Lacks c := by
  induction script generalizing listing with
  | nil => exact lacks
  | cons command script ih =>
    have first := lacks.apply ink (plain command List.mem_cons_self)
    exact ih first fun later member => plain later (List.mem_cons_of_mem _ member)

end Lacks

end CListing.Listing
