import CListing.Listing.Basic

/-!
# Properties that listings keep

All commands are made of a few things: a line is written, a page is begun or closed, and the pending
line or the depth is changed. A property that these keep is kept by every script. Most commands do
nothing to pages of their own accord.
-/

namespace CListing

/-- The command begins or closes no page unless a line has no room. -/
def Command.staysOnPage : Command → Bool
  | .endLine forced => !forced
  | .newPage | .endPage => false
  | _ => true

/-- The text that the command brings along. -/
def Command.text : Command → List Char
  | .append text _ | .directive text | .report text | .write text _ => text
  | _ => []

/-- A line with a text of its own, not a heading. -/
def Line.Origin.isBody : Line.Origin → Bool
  | .heading _ => false
  | _ => true

theorem Line.isHeading_of_isBody {origin : Line.Origin} (body : origin.isBody = true)
    (text : List Char) : Line.isHeading ⟨origin, text⟩ = false := by
  cases origin <;> first | rfl | contradiction

namespace Listing

/-- The property is kept when a line is written, and does not depend on the pending line and the
depth. -/
structure KeptByLines (K : Listing → Prop) : Prop where
  pending {listing} (holds : K listing) (pending : List Char) :
    K { listing with pending := pending }
  indentation {listing} (holds : K listing) (indentation : Int) :
    K { listing with indentation := indentation }
  writeLine {listing} (holds : K listing) {origin : Line.Origin} (body : origin.isBody = true)
    (text : List Char) (indented : Bool) : K (listing.writeLine origin text indented)

/-- The property is kept when a page is begun or closed, too. -/
structure KeptByPages (K : Listing → Prop) : Prop extends KeptByLines K where
  newPage {listing} (holds : K listing) : K listing.newPage
  endPage {listing} (holds : K listing) :
    K { listing with linesOnPage := listing.layout.linesPerPage }

namespace KeptByLines

variable {K : Listing → Prop} (kept : KeptByLines K) {listing : Listing}
include kept

theorem flush (holds : K listing) : K listing.flush :=
  kept.pending (kept.writeLine holds rfl _ _) []

theorem flushAny (holds : K listing) : K listing.flushAny := by
  unfold Listing.flushAny
  split
  · exact holds
  · exact kept.flush holds

theorem dropSeparator (holds : K listing) : K listing.dropSeparator := by
  unfold Listing.dropSeparator
  split
  · exact kept.pending holds _
  · exact holds

theorem append (holds : K listing) (lexeme : List Char) (spacing : Spacing) :
    K (listing.append lexeme spacing) := by
  have drawn : K (if spacing.joinsLeft then listing.dropSeparator else listing) := by
    split
    · exact kept.dropSeparator holds
    · exact holds
  simp only [Listing.append]
  generalize (if spacing.joinsLeft then listing.dropSeparator else listing) = start at drawn ⊢
  apply kept.pending
  split
  · exact kept.flush drawn
  · exact drawn

theorem endLine (holds : K listing) : K (listing.endLine false) :=
  kept.flushAny holds

/-- A command that stays on the page keeps the property. -/
theorem apply (holds : K listing) {command : Command} (stays : command.staysOnPage = true) :
    K (listing.apply command) := by
  cases command with
  | append lexeme spacing => exact kept.append holds lexeme spacing
  | indent => exact kept.indentation holds _
  | unindent => exact kept.indentation holds _
  | endLine forced =>
    cases forced with
    | false => exact kept.endLine holds
    | true => contradiction
  | skipLine => exact kept.writeLine (kept.endLine holds) rfl _ _
  | newPage => contradiction
  | endPage => contradiction
  | directive text => exact kept.writeLine (kept.endLine holds) rfl _ _
  | report text => exact kept.writeLine holds rfl _ _
  | write text indented => exact kept.writeLine holds rfl _ _

end KeptByLines

namespace KeptByPages

variable {K : Listing → Prop} (kept : KeptByPages K) {listing : Listing}
include kept

theorem apply (holds : K listing) (command : Command) : K (listing.apply command) := by
  cases command with
  | endLine forced =>
    simp only [Listing.apply, Listing.endLine]
    apply kept.flushAny
    split
    · exact kept.newPage holds
    · exact holds
  | newPage => exact kept.newPage holds
  | endPage => exact kept.endPage holds
  | append lexeme spacing => exact kept.toKeptByLines.apply holds rfl
  | indent => exact kept.toKeptByLines.apply holds rfl
  | unindent => exact kept.toKeptByLines.apply holds rfl
  | skipLine => exact kept.toKeptByLines.apply holds rfl
  | directive text => exact kept.toKeptByLines.apply holds rfl
  | report text => exact kept.toKeptByLines.apply holds rfl
  | write text indented => exact kept.toKeptByLines.apply holds rfl

/-- Every script keeps the property. -/
theorem run (holds : K listing) (script : List Command) : K (listing.run script) := by
  induction script generalizing listing with
  | nil => exact holds
  | cons command script ih => exact ih (kept.apply holds command)

end KeptByPages

/-! ## Layout and name -/

section Frame

variable (listing : Listing)

theorem layout_makeRoom : listing.makeRoom.layout = listing.layout := by
  unfold makeRoom
  split <;> rfl

theorem name_makeRoom : listing.makeRoom.name = listing.name := by
  unfold makeRoom
  split <;> rfl

theorem layout_writeLine (origin : Line.Origin) (text : List Char) (indented : Bool) :
    (listing.writeLine origin text indented).layout = listing.layout :=
  layout_makeRoom listing

theorem name_writeLine (origin : Line.Origin) (text : List Char) (indented : Bool) :
    (listing.writeLine origin text indented).name = listing.name :=
  name_makeRoom listing

theorem lineText_makeRoom (text : List Char) (indented : Bool) :
    listing.makeRoom.lineText text indented = listing.lineText text indented := by
  unfold makeRoom
  split <;> rfl

theorem indentation_writeLine (origin : Line.Origin) (text : List Char) (indented : Bool) :
    (listing.writeLine origin text indented).indentation = listing.indentation := by
  unfold writeLine makeRoom
  dsimp only
  split <;> rfl

theorem keptByPages_layout (layout : Layout) :
    KeptByPages fun listing => listing.layout = layout where
  pending holds _ := holds
  indentation holds _ := holds
  writeLine {listing} holds _ _ _ _ := (layout_writeLine listing _ _ _).trans holds
  newPage holds := holds
  endPage holds := holds

theorem keptByPages_name (name : List Char) : KeptByPages fun listing => listing.name = name where
  pending holds _ := holds
  indentation holds _ := holds
  writeLine {listing} holds _ _ _ _ := (name_writeLine listing _ _ _).trans holds
  newPage holds := holds
  endPage holds := holds

theorem layout_apply (command : Command) : (listing.apply command).layout = listing.layout :=
  (keptByPages_layout listing.layout).apply rfl command

theorem layout_endLine (forced : Bool) : (listing.endLine forced).layout = listing.layout :=
  layout_apply listing (.endLine forced)

theorem layout_run (script : List Command) : (listing.run script).layout = listing.layout :=
  (keptByPages_layout listing.layout).run rfl script

theorem name_run (script : List Command) : (listing.run script).name = listing.name :=
  (keptByPages_name listing.name).run rfl script

end Frame

/-! ## Lines stay -/

section Prefix

variable (listing : Listing)

theorem isPrefix_newPage : listing.lines.toList <+: listing.newPage.lines.toList := by
  rw [newPage, Array.toList_push]
  exact List.prefix_append _ _

theorem isPrefix_makeRoom : listing.lines.toList <+: listing.makeRoom.lines.toList := by
  unfold makeRoom
  split
  · exact isPrefix_newPage listing
  · exact List.prefix_rfl

theorem isPrefix_writeLine (origin : Line.Origin) (text : List Char) (indented : Bool) :
    listing.lines.toList <+: (listing.writeLine origin text indented).lines.toList := by
  rw [writeLine, Array.toList_push]
  exact (isPrefix_makeRoom listing).trans (List.prefix_append _ _)

theorem keptByPages_linesStay (lines : List Line) :
    KeptByPages fun listing => lines <+: listing.lines.toList where
  pending holds _ := holds
  indentation holds _ := holds
  writeLine {listing} holds _ _ _ _ := holds.trans (isPrefix_writeLine listing _ _ _)
  newPage {listing} holds := holds.trans (isPrefix_newPage listing)
  endPage holds := holds

/-- What was written stays. -/
theorem isPrefix_run (script : List Command) :
    listing.lines.toList <+: (listing.run script).lines.toList :=
  (keptByPages_linesStay listing.lines.toList).run List.prefix_rfl script

end Prefix

end Listing

end CListing
