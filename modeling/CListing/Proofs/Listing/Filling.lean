import CListing.Proofs.Formatter.Script
import CListing.Proofs.Listing.Ink
import CListing.Proofs.Listing.Kept
import CListing.Proofs.Listing.Written
import Mathlib.Data.List.Infix

/-!
# Filling a listing

What each operation of a listing does to the lines written and to the pending line. The pending line
is a row of lexemes with or without a blank at its end. A lexeme goes to the row, behind a blank or
at a joint, or begins a new one. The copies of a directive are written one below the other, unless a
page begins between them.
-/

namespace CListing

open Unicode Scan

namespace Text

theorem trimEnd_of_blank {blanks : List Char} (blank : ∀ c ∈ blanks, isBlank c = true) :
    trimEnd blanks = [] := by
  induction blanks with
  | nil => rfl
  | cons c blanks ih =>
    rw [trimEnd, ih fun d member => blank d (List.mem_cons_of_mem _ member),
      if_pos (blank c List.mem_cons_self)]

/-- Blanks behind a text that does not end in one are trimmed off. -/
theorem trimEnd_append_blanks {text blanks : List Char} (ink : text.getLast?.any isBlank = false)
    (blank : ∀ c ∈ blanks, isBlank c = true) : trimEnd (text ++ blanks) = text := by
  induction text with
  | nil => exact trimEnd_of_blank blank
  | cons c text ih =>
    cases text with
    | nil =>
      rw [List.cons_append, trimEnd_cons_of_ink (by simpa using ink), List.nil_append,
        trimEnd_of_blank blank]
    | cons d more =>
      have later := ih (by simpa using ink)
      rw [List.cons_append, trimEnd, later]

end Text

/-- The lines begin with a line of a directive that goes on behind a heading. -/
def partsDirective : List Line → Bool
  | line :: heading :: next :: _ =>
    decide (line.origin = .directive) && decide (line.text.getLast? = some '\\') &&
      heading.isHeading && decide (next.origin = .directive)
  | _ => false

namespace Listing

/-- No page begins between two lines of a directive. -/
def Unparted (listing : Listing) : Prop :=
  ∀ lines ∈ listing.lines.toList.tails, partsDirective lines = false

instance (listing : Listing) : Decidable listing.Unparted :=
  inferInstanceAs (Decidable (∀ lines ∈ _, _))

/-- The listing before a lexeme is added, without the last blank if the lexeme is to join. -/
def drawn (listing : Listing) (spacing : Spacing) : Listing :=
  if spacing.joinsLeft then listing.dropSeparator else listing

/-- The lexeme is written right behind another one, with no blank between them. -/
def joins (listing : Listing) (lexeme : List Char) (spacing : Spacing) : Bool :=
  let drawn := listing.drawn spacing
  !drawn.pending.isEmpty && !drawn.overflows lexeme && decide (drawn.pending.getLast? ≠ some ' ')

/-- The joints in the lines that a script fills; `before` is the last lexeme so far. -/
def joints (listing : Listing) (before : List Char) : List Command → List Joint
  | [] => []
  | .append lexeme spacing :: script =>
    (if listing.joins lexeme spacing then [{ left := before, right := lexeme }] else []) ++
      (listing.append lexeme spacing).joints lexeme script
  | command :: script => (listing.apply command).joints before script

end Listing

/-- The pending line holds a row of lexemes, if any, and perhaps a blank at its end. -/
inductive Pending : List Char → List Item → List Joint → List Char → Prop
  | none {last : List Char} : Pending [] [] [] last
  | row {text last separator : List Char} {items : List Item} {joints : List Joint}
      (row : Row text items joints last) (blank : separator = [] ∨ separator = [' ']) :
      Pending (text ++ separator) items joints last

namespace Listing

variable {listing : Listing} {items : List Item} {joints : List Joint} {dangling : Bool}

section Lines

variable {margin : Int} (plainName : '\n' ∉ listing.name)
include plainName

theorem written_newPage (written : Written margin listing.lines.toList items joints dangling) :
    Written margin listing.newPage.lines.toList items joints dangling := by
  rw [newPage, Array.toList_push]
  apply Written.passed _ _ written
  · simp
  · exact Line.readBack_heading plainName _ _ _

theorem written_makeRoom (written : Written margin listing.lines.toList items joints dangling) :
    Written margin listing.makeRoom.lines.toList items joints dangling := by
  unfold makeRoom
  split
  · exact written_newPage plainName written
  · exact written

/-- An empty line comes back as one. -/
theorem written_gap (written : Written margin listing.lines.toList items joints dangling) :
    Written margin (listing.writeLine .gap [] true).lines.toList items joints dangling := by
  rw [writeLine, Array.toList_push]
  apply Written.passed _ _ (written_makeRoom plainName written)
  · simp
  · rfl

/-- The pending row becomes a line, without the blank at its end. -/
theorem written_flush (written : Written margin listing.lines.toList items joints false)
    {text last separator : List Char} {tokens : List Item} {more : List Joint}
    (row : Row text tokens more last) (blank : separator = [] ∨ separator = [' '])
    (pending : listing.pending = text ++ separator) :
    Written margin listing.flush.lines.toList (items ++ tokens) (joints ++ more) false := by
  obtain ⟨nonempty, _, ink⟩ := row.ink_ends
  have space : isBlank ' ' = true := by decide
  have blanks : ∀ c ∈ separator, isBlank c = true := by
    rcases blank with rfl | rfl <;> simp [space]
  have trimmed : Text.trimEnd listing.pending = text := by
    rw [pending]
    exact Text.trimEnd_append_blanks ink blanks
  have line : listing.makeRoom.lineText listing.pending true =
      (spaces listing.makeRoom.layout.leftMargin ++ listing.makeRoom.indentText) ++ text := by
    unfold lineText
    rw [trimmed]
    cases text with
    | nil => contradiction
    | cons c more => rfl
  rw [flush, writeLine, Array.toList_push, line]
  apply Written.row _ row (written_makeRoom plainName written)
  intro c member
  rcases List.mem_append.mp member with inMargin | inIndent
  · exact List.eq_of_mem_replicate inMargin
  · exact List.eq_of_mem_replicate inIndent

end Lines

theorem append_eq_drawn (listing : Listing) (lexeme : List Char) (spacing : Spacing) :
    listing.append lexeme spacing =
      let drawn := listing.drawn spacing
      let room := if !drawn.pending.isEmpty && drawn.overflows lexeme then drawn.flush else drawn
      { room with
        pending := room.pending ++ lexeme ++ if spacing.joinsRight then [] else [' '] } :=
  rfl

theorem endLine_of_nil (empty : listing.pending = []) : listing.endLine false = listing := by
  simp [endLine, flushAny, empty]

/-- Without a pending line there is no blank to take away. -/
theorem drawn_of_nil (empty : listing.pending = []) (spacing : Spacing) :
    listing.drawn spacing = listing := by
  unfold drawn dropSeparator
  rw [empty]
  split <;> rfl

/-- A row keeps the blank behind it, unless the lexeme is to join. -/
theorem drawn_of_pending {text separator : List Char} (ink : text.getLast?.any isBlank = false)
    (blank : separator = [] ∨ separator = [' ']) (pending : listing.pending = text ++ separator)
    (spacing : Spacing) :
    listing.drawn spacing =
      { listing with pending := text ++ if spacing.joinsLeft then [] else separator } := by
  have same : listing = { listing with pending := text ++ separator } := by
    rw [← pending]
  cases joins : spacing.joinsLeft with
  | false =>
    rw [drawn, joins]
    exact same
  | true =>
    rw [drawn, joins, if_pos rfl, if_pos rfl, dropSeparator, pending]
    rcases blank with rfl | rfl
    · have noBlank : (text ++ []).getLast? ≠ some ' ' := by
        intro last
        rw [List.append_nil] at last
        rw [last] at ink
        exact absurd ink (by decide)
      rw [if_neg noBlank]
      exact same
    · rw [if_pos (by simp), List.dropLast_concat, List.append_nil]

theorem exists_drawn {text separator : List Char} (ink : text.getLast?.any isBlank = false)
    (blank : separator = [] ∨ separator = [' ']) (pending : listing.pending = text ++ separator)
    (spacing : Spacing) :
    ∃ kept, (kept = [] ∨ kept = [' ']) ∧
      listing.drawn spacing = { listing with pending := text ++ kept } := by
  refine ⟨_, ?_, drawn_of_pending ink blank pending spacing⟩
  split
  · exact Or.inl rfl
  · exact blank

/-- What a lexeme leaves behind itself is one blank or nothing. -/
theorem separator_cases (spacing : Spacing) :
    (if spacing.joinsRight then [] else [' ']) = [] ∨
      (if spacing.joinsRight then [] else [' ']) = [' '] := by
  cases spacing.joinsRight with
  | false => exact Or.inr rfl
  | true => exact Or.inl rfl

section Cases

variable {lexeme : List Char} {spacing : Spacing}

theorem append_of_nil (empty : listing.pending = []) :
    listing.append lexeme spacing =
      { listing with pending := lexeme ++ if spacing.joinsRight then [] else [' '] } := by
  simp [append_eq_drawn, drawn_of_nil empty, empty]

theorem append_of_overflows (filled : (listing.drawn spacing).pending ≠ [])
    (overflow : (listing.drawn spacing).overflows lexeme = true) :
    listing.append lexeme spacing =
      { (listing.drawn spacing).flush with
        pending := lexeme ++ if spacing.joinsRight then [] else [' '] } := by
  simp [append_eq_drawn, filled, overflow, flush]

theorem append_of_fits (fits : (listing.drawn spacing).overflows lexeme = false) :
    listing.append lexeme spacing =
      { listing.drawn spacing with
        pending := (listing.drawn spacing).pending ++ lexeme ++
          if spacing.joinsRight then [] else [' '] } := by
  simp [append_eq_drawn, fits]

theorem joins_of_nil (empty : listing.pending = []) : listing.joins lexeme spacing = false := by
  simp [joins, drawn_of_nil empty, empty]

theorem joins_of_fits (filled : (listing.drawn spacing).pending ≠ [])
    (fits : (listing.drawn spacing).overflows lexeme = false) :
    listing.joins lexeme spacing =
      decide ((listing.drawn spacing).pending.getLast? ≠ some ' ') := by
  simp [joins, filled, fits]

theorem joins_of_overflows (overflow : (listing.drawn spacing).overflows lexeme = true) :
    listing.joins lexeme spacing = false := by
  simp [joins, overflow]

end Cases

/-- A blank stands at the end of the pending line unless the last lexeme joins what follows it. -/
def Blanked (listing : Listing) (spacing : Spacing) : Prop :=
  listing.pending = [] ∨ spacing.joinsRight = true ∨ listing.pending.getLast? = some ' '

theorem blanked_append (listing : Listing) (lexeme : List Char) (spacing : Spacing) :
    (listing.append lexeme spacing).Blanked spacing := by
  cases joins : spacing.joinsRight with
  | true => exact Or.inr (Or.inl joins)
  | false =>
    right
    right
    rw [append_eq_drawn]
    simp [joins]

theorem Blanked.apply_of_isSilent {spacing : Spacing} (blanked : listing.Blanked spacing)
    {command : Command} (silent : command.isSilent = true) :
    (listing.apply command).Blanked spacing := by
  cases command with
  | endLine forced => exact Or.inl (pending_endLine listing forced)
  | skipLine =>
    left
    rw [apply, writeLine, pending_makeRoom, pending_endLine]
  | indent => exact blanked
  | unindent => exact blanked
  | endPage => exact blanked
  | _ => contradiction

/-- Lexemes are joined only if one of them says so. -/
theorem Blanked.of_joins {previous spacing : Spacing} (blanked : listing.Blanked previous)
    {lexeme : List Char} (joins : listing.joins lexeme spacing = true) :
    previous.joinsRight = true ∨ spacing.joinsLeft = true := by
  cases left : spacing.joinsLeft with
  | true => exact Or.inr rfl
  | false =>
    have drawn : listing.drawn spacing = listing := by
      rw [Listing.drawn, left]
      rfl
    simp only [Listing.joins, drawn, Bool.and_eq_true, decide_eq_true_iff] at joins
    rcases blanked with empty | right | blank
    · simp [empty] at joins
    · exact Or.inl right
    · exact absurd blank joins.2

theorem pending_writeLine (listing : Listing) (origin : Line.Origin) (text : List Char)
    (indented : Bool) : (listing.writeLine origin text indented).pending = listing.pending :=
  pending_makeRoom listing

end Listing

/-- What a listing holds: the items and joints in its lines and in the pending line after them, the
last lexeme, and whether the last line is one of a directive that ends in a backslash. -/
structure Holds (listing : Listing) (items : List Item) (joints : List Joint) (last : List Char)
    (dangling : Bool) : Prop where
  plainName : '\n' ∉ listing.name
  split : ∃ written row writtenJoints rowJoints, items = written ++ row ∧
    joints = writtenJoints ++ rowJoints ∧
      Written listing.layout.leftMargin listing.lines.toList written writtenJoints dangling ∧
        Pending listing.pending row rowJoints last
  idle : dangling = true → listing.pending = []

namespace Holds

variable {listing : Listing} {items : List Item} {joints : List Joint} {last : List Char}
variable {dangling : Bool}

theorem blank (layout : Layout) {name : List Char} (plainName : '\n' ∉ name) (last : List Char) :
    Holds (Listing.blank layout name) [] [] last false where
  plainName := plainName
  split := ⟨[], [], [], [], rfl, rfl, Written.nil, Pending.none⟩
  idle _ := rfl

theorem newPage (holds : Holds listing items joints last dangling) :
    Holds listing.newPage items joints last dangling := by
  obtain ⟨plainName, ⟨written, row, writtenJoints, rowJoints, itemsEq, jointsEq, lines, pending⟩,
    idle⟩ := holds
  exact ⟨plainName, ⟨written, row, writtenJoints, rowJoints, itemsEq, jointsEq,
    Listing.written_newPage plainName lines, pending⟩, idle⟩

/-- With no pending line, everything is in the lines. -/
theorem written (holds : Holds listing items joints last dangling) (empty : listing.pending = []) :
    Written listing.layout.leftMargin listing.lines.toList items joints dangling := by
  obtain ⟨_, ⟨written, row, writtenJoints, rowJoints, rfl, rfl, lines, pending⟩, _⟩ := holds
  rw [empty] at pending
  generalize text : ([] : List Char) = held at pending
  cases pending with
  | none => simpa using lines
  | row inner _ => exact absurd (List.append_eq_nil_iff.mp text.symm).1 inner.ink_ends.1

theorem ofWritten (plainName : '\n' ∉ listing.name)
    (lines : Written listing.layout.leftMargin listing.lines.toList items joints dangling)
    (empty : listing.pending = []) (last : List Char) :
    Holds listing items joints last dangling := by
  refine ⟨plainName, ⟨items, [], joints, [], by simp, by simp, lines, ?_⟩, fun _ => empty⟩
  rw [empty]
  exact Pending.none

theorem flushAny (holds : Holds listing items joints last dangling) :
    Holds listing.flushAny items joints last dangling := by
  unfold Listing.flushAny
  split
  · exact holds
  · rename_i nonempty
    obtain ⟨plainName, ⟨written, row, writtenJoints, rowJoints, rfl, rfl, lines, pending⟩,
      idle⟩ := holds
    have notDangling : dangling = false := by
      cases dangling with
      | false => rfl
      | true => simp [idle rfl] at nonempty
    subst notDangling
    generalize text : listing.pending = held at pending
    cases pending with
    | none => simp [text] at nonempty
    | row inner blank =>
      have flushed := Listing.written_flush plainName lines inner blank text
      have layout : listing.flush.layout = listing.layout := Listing.layout_makeRoom listing
      have name : listing.flush.name = listing.name := Listing.name_makeRoom listing
      apply ofWritten _ _ rfl
      · rwa [name]
      · rwa [layout]

theorem endLine (holds : Holds listing items joints last dangling) (forced : Bool) :
    Holds (listing.endLine forced) items joints last dangling := by
  unfold Listing.endLine
  apply flushAny
  split
  · exact holds.newPage
  · exact holds

/-- Commands without text add nothing. -/
theorem apply_of_isSilent (holds : Holds listing items joints last dangling) {command : Command}
    (silent : command.isSilent = true) :
    Holds (listing.apply command) items joints last dangling := by
  cases command with
  | indent => exact ⟨holds.plainName, holds.split, holds.idle⟩
  | unindent => exact ⟨holds.plainName, holds.split, holds.idle⟩
  | endPage => exact ⟨holds.plainName, holds.split, holds.idle⟩
  | endLine forced => exact holds.endLine forced
  | skipLine =>
    have ended := holds.endLine false
    have empty := Listing.pending_endLine listing false
    have lines := Listing.written_gap ended.plainName (ended.written empty)
    apply ofWritten
    · rw [Listing.apply, Listing.name_writeLine]
      exact ended.plainName
    · rw [Listing.apply, Listing.layout_writeLine]
      exact lines
    · rw [Listing.apply, Listing.pending_writeLine, empty]
  | _ => contradiction

section Append

variable {item : Item} {spacing : Spacing} {writtenItems row : List Item}
variable {writtenJoints rowJoints : List Joint} {text separator : List Char}

/-- A lexeme begins a row below lines that hold everything before it. -/
theorem startRow (plainName : '\n' ∉ listing.name)
    (lines : Written listing.layout.leftMargin listing.lines.toList items joints false)
    (spelling : Spelling item.category item.lexeme)
    (pending : listing.pending = item.lexeme ++ if spacing.joinsRight then [] else [' ']) :
    Holds listing (items ++ [item]) joints item.lexeme false := by
  refine ⟨plainName, ⟨items, [item], joints, [], rfl, by simp, lines, ?_⟩, by simp⟩
  rw [pending]
  exact Pending.row (Row.single spelling) (Listing.separator_cases spacing)

/-- The row of the pending line has one more lexeme than before. -/
theorem extendRow (spacing : Spacing) (plainName : '\n' ∉ listing.name)
    (lines : Written listing.layout.leftMargin listing.lines.toList writtenItems writtenJoints
      false)
    (longer : Row text (row ++ [item]) rowJoints item.lexeme)
    (pending : listing.pending = text ++ if spacing.joinsRight then [] else [' ']) :
    Holds listing (writtenItems ++ row ++ [item]) (writtenJoints ++ rowJoints) item.lexeme
      false := by
  refine ⟨plainName, ⟨writtenItems, row ++ [item], writtenJoints, rowJoints,
    List.append_assoc _ _ _, rfl, lines, ?_⟩, by simp⟩
  rw [pending]
  exact Pending.row longer (Listing.separator_cases spacing)

/-- A lexeme for which the pending row has no room begins a new one. -/
theorem append_of_overflows (plainName : '\n' ∉ listing.name)
    (lines : Written listing.layout.leftMargin listing.lines.toList writtenItems writtenJoints
      false)
    (inner : Row text row rowJoints last) (blank : separator = [] ∨ separator = [' '])
    (pending : listing.pending = text ++ separator)
    (overflow : (listing.drawn spacing).overflows item.lexeme = true)
    (spelling : Spelling item.category item.lexeme) :
    Holds (listing.append item.lexeme spacing) (writtenItems ++ row ++ [item])
      (writtenJoints ++ rowJoints) item.lexeme false := by
  obtain ⟨nonempty, _, ink⟩ := inner.ink_ends
  obtain ⟨kept, keptBlank, drawn⟩ := Listing.exists_drawn ink blank pending spacing
  have filled : (listing.drawn spacing).pending ≠ [] := by
    simp [drawn, nonempty]
  have name : '\n' ∉ (listing.drawn spacing).name := by rwa [drawn]
  have above : Written (listing.drawn spacing).layout.leftMargin
      (listing.drawn spacing).lines.toList writtenItems writtenJoints false := by rwa [drawn]
  -- the row becomes a line without the blank it kept
  have flushed := Listing.written_flush name above inner keptBlank (by rw [drawn])
  rw [Listing.append_of_overflows filled overflow]
  apply startRow _ _ spelling rfl
  · rwa [Listing.flush, Listing.name_writeLine]
  · rwa [Listing.flush, Listing.layout_writeLine]

/-- A lexeme for which the pending row has room is joined to it or follows it behind a blank. -/
theorem append_of_fits (plainName : '\n' ∉ listing.name)
    (lines : Written listing.layout.leftMargin listing.lines.toList writtenItems writtenJoints
      false)
    (inner : Row text row rowJoints last) (blank : separator = [] ∨ separator = [' '])
    (pending : listing.pending = text ++ separator)
    (fits : (listing.drawn spacing).overflows item.lexeme = false)
    (spelling : Spelling item.category item.lexeme)
    (noComment : listing.joins item.lexeme spacing = true → last = ['/'] →
      ¬ MayOpenComment item.lexeme) :
    Holds (listing.append item.lexeme spacing) (writtenItems ++ row ++ [item])
      (writtenJoints ++ rowJoints ++ if listing.joins item.lexeme spacing then
        [{ left := last, right := item.lexeme }] else []) item.lexeme false := by
  obtain ⟨nonempty, _, ink⟩ := inner.ink_ends
  obtain ⟨kept, keptBlank, drawn⟩ := Listing.exists_drawn ink blank pending spacing
  have filled : (listing.drawn spacing).pending ≠ [] := by
    simp [drawn, nonempty]
  have joins := Listing.joins_of_fits filled fits
  rw [Listing.append_of_fits fits]
  rw [drawn] at joins ⊢
  rcases keptBlank with rfl | rfl
  · have noBlank : text.getLast? ≠ some ' ' := by
      intro space
      rw [space] at ink
      exact absurd ink (by decide)
    have joint : listing.joins item.lexeme spacing = true := by
      simpa [noBlank] using joins
    have longer := Row.joined inner spelling (noComment joint)
    rw [joint, if_pos rfl, List.append_assoc writtenJoints]
    exact extendRow spacing plainName lines longer (by simp)
  · have apart : listing.joins item.lexeme spacing = false := by
      simpa using joins
    have longer := Row.spaced inner spelling
    rw [apart, if_neg Bool.false_ne_true, List.append_nil]
    exact extendRow spacing plainName lines longer (by simp)

/-- A lexeme goes to the pending row, or begins a new one. -/
theorem append (holds : Holds listing items joints last false)
    (spelling : Spelling item.category item.lexeme)
    (noComment : listing.joins item.lexeme spacing = true → last = ['/'] →
      ¬ MayOpenComment item.lexeme) :
    Holds (listing.append item.lexeme spacing) (items ++ [item])
      (joints ++ if listing.joins item.lexeme spacing then
        [{ left := last, right := item.lexeme }] else []) item.lexeme false := by
  have ⟨plainName, ⟨written, row, writtenJoints, rowJoints, itemsEq, jointsEq, lines, pending⟩,
    _⟩ := holds
  generalize text : listing.pending = held at pending
  cases pending with
  | none =>
    rw [Listing.joins_of_nil text, Listing.append_of_nil text, if_neg Bool.false_ne_true,
      List.append_nil]
    exact startRow plainName (holds.written text) spelling rfl
  | row inner blank =>
    rw [itemsEq, jointsEq]
    cases overflow : (listing.drawn spacing).overflows item.lexeme with
    | true =>
      rw [Listing.joins_of_overflows overflow, if_neg Bool.false_ne_true, List.append_nil]
      exact append_of_overflows plainName lines inner blank text overflow spelling
    | false => exact append_of_fits plainName lines inner blank text overflow spelling noComment

end Append

end Holds

end CListing
