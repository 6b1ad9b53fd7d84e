import CListing.Proofs.Listing.Filling

/-!
# The width of a listing

A lexeme goes to the pending line only if the line then fits between the margin and the width, or if
it begins the line. What was measured is what is written, as long as the depth does not change under
a pending line. Scripts that change it between lines only are told by a scan of their commands.
-/

namespace CListing

open Unicode

/-- A blank at the end is trimmed off with all before it. -/
theorem Text.trimEnd_append_blank (text : List Char) : trimEnd (text ++ [' ']) = trimEnd text := by
  have blank : isBlank ' ' = true := by decide
  induction text with
  | nil => simp [trimEnd, blank]
  | cons c text ih => rw [List.cons_append, trimEnd, ih, trimEnd]

/-- The command changes the depth. -/
def Command.isShift : Command → Bool
  | .indent | .unindent => true
  | _ => false

/-- Whether a listing rests after the command, which means that no line is pending, by whether it
rested before. There is no answer if the depth changes under a line that may be pending. -/
def Command.rest? (resting : Bool) : Command → Option Bool
  | .append _ _ => some false
  | .indent | .unindent => if resting then some true else none
  | .endLine _ | .skipLine | .directive _ => some true
  | _ => some resting

/-- Whether a listing rests after the script. -/
def rest? (resting : Bool) : List Command → Option Bool
  | [] => some resting
  | command :: script => (command.rest? resting).bind fun next => rest? next script

theorem rest?_cons (resting : Bool) (command : Command) (script : List Command) :
    rest? resting (command :: script) =
      (command.rest? resting).bind fun next => rest? next script :=
  rfl

theorem rest?_append (resting : Bool) (first second : List Command) :
    rest? resting (first ++ second) = (rest? resting first).bind fun next => rest? next second := by
  induction first generalizing resting with
  | nil => rfl
  | cons command first ih =>
    rw [List.cons_append, rest?_cons, rest?_cons, Option.bind_assoc]
    exact Option.bind_congr fun next _ => ih next

/-- The line is neither a heading nor one of a directive nor a report. -/
def Line.isFilled (line : Line) : Bool :=
  match line.origin with
  | .heading _ | .directive | .report => false
  | _ => true

/-- The text of a line is no longer than the width, or it is a single lexeme behind the margin and
the indentation. -/
def Layout.Admits (layout : Layout) (used : List Char → Prop) (text : List Char) : Prop :=
  text.length ≤ layout.lineWidth ∨
    ∃ depth lexeme, used lexeme ∧
      text = spaces layout.leftMargin ++ spaces depth ++ Text.trimEnd lexeme

namespace Listing

variable {listing : Listing}

/-! ## Resting listings -/

/-- The scan tells when no line is pending. -/
theorem pending_apply_of_rest? {resting next : Bool} {command : Command}
    (rests : resting = true → listing.pending = []) (found : command.rest? resting = some next)
    (restsNext : next = true) : (listing.apply command).pending = [] := by
  subst restsNext
  cases command with
  | append lexeme spacing => simp [Command.rest?] at found
  | indent =>
    cases resting with
    | true => exact rests rfl
    | false => contradiction
  | unindent =>
    cases resting with
    | true => exact rests rfl
    | false => contradiction
  | endLine forced => exact pending_endLine listing forced
  | skipLine => rw [apply, pending_writeLine, pending_endLine]
  | newPage => exact rests (Option.some.inj found)
  | endPage => exact rests (Option.some.inj found)
  | directive text => rw [apply, pending_writeLine, pending_endLine]
  | report text =>
    rw [apply, pending_writeLine]
    exact rests (Option.some.inj found)
  | write text indented =>
    rw [apply, pending_writeLine]
    exact rests (Option.some.inj found)

theorem pending_run_of_rest? {resting after : Bool} {script : List Command}
    (rests : resting = true → listing.pending = []) (found : rest? resting script = some after) :
    after = true → (listing.run script).pending = [] := by
  induction script generalizing listing resting with
  | nil =>
    obtain rfl := Option.some.inj found
    exact rests
  | cons command script ih =>
    obtain ⟨next, first, later⟩ := Option.bind_eq_some_iff.mp found
    exact ih (pending_apply_of_rest? rests first) later

/-- Where the scan has an answer, the depth changes between lines only. -/
theorem pending_of_isShift {resting after : Bool} {before script : List Command}
    {command : Command} (rests : resting = true → listing.pending = [])
    (found : rest? resting (before ++ command :: script) = some after)
    (shift : command.isShift = true) : (listing.run before).pending = [] := by
  rw [rest?_append] at found
  obtain ⟨middle, first, later⟩ := Option.bind_eq_some_iff.mp found
  obtain ⟨next, here, _⟩ := Option.bind_eq_some_iff.mp later
  apply pending_run_of_rest? rests first
  cases middle with
  | true => rfl
  | false => cases command <;> contradiction

/-! ## Lines that fit -/

/-- The lines that were filled fit, and the pending line will fit wherever it ends. -/
structure Fits (used : List Char → Prop) (listing : Listing) : Prop where
  margin : 0 ≤ listing.layout.leftMargin
  width : 0 ≤ listing.layout.lineWidth
  lines : ∀ line ∈ listing.lines.toList, line.isFilled = true →
    listing.layout.Admits used line.text
  pending : listing.pending = [] ∨
    listing.layout.leftMargin + max listing.indentation 0 +
        (Text.trimEnd listing.pending).length ≤ listing.layout.lineWidth ∨
      ∃ lexeme, used lexeme ∧ Text.trimEnd listing.pending = Text.trimEnd lexeme

/-- A text that fits behind the margin and the indentation, and a single lexeme, make a line. -/
theorem admits_lineText {used : List Char → Prop} {text : List Char}
    (margin : 0 ≤ listing.layout.leftMargin) (width : 0 ≤ listing.layout.lineWidth)
    (measured : text = [] ∨
      listing.layout.leftMargin + max listing.indentation 0 + (Text.trimEnd text).length ≤
          listing.layout.lineWidth ∨
        ∃ lexeme, used lexeme ∧ Text.trimEnd text = Text.trimEnd lexeme) :
    listing.layout.Admits used (listing.lineText text true) := by
  unfold lineText
  split
  · exact Or.inl width
  · rename_i kept nonempty
    rcases measured with rfl | narrow | ⟨lexeme, isUsed, same⟩
    · exact absurd rfl nonempty
    · left
      simp only [if_true, indentText, spaces, List.length_append, List.length_replicate]
      omega
    · right
      refine ⟨max listing.indentation 0, lexeme, isUsed, ?_⟩
      rw [← same]
      rfl

namespace Fits

variable {used : List Char → Prop}

theorem blank {layout : Layout} (margin : 0 ≤ layout.leftMargin) (width : 0 ≤ layout.lineWidth)
    (used : List Char → Prop) (name : List Char) : (Listing.blank layout name).Fits used where
  margin := margin
  width := width
  lines := by simp [Listing.blank]
  pending := Or.inl rfl

theorem newPage (fits : listing.Fits used) : listing.newPage.Fits used where
  margin := fits.margin
  width := fits.width
  lines := by
    intro line member filled
    rw [Listing.newPage, Array.toList_push] at member
    rcases List.mem_append.mp member with before | heading
    · exact fits.lines line before filled
    · rw [List.mem_singleton.mp heading] at filled
      contradiction
  pending := fits.pending

theorem makeRoom (fits : listing.Fits used) : listing.makeRoom.Fits used := by
  unfold Listing.makeRoom
  split
  · exact fits.newPage
  · exact fits

/-- A line is added that fits, unless it need not. -/
theorem writeLine (fits : listing.Fits used) {origin : Line.Origin} {text : List Char}
    {indented : Bool} (admitted : Line.isFilled ⟨origin, []⟩ = true →
      listing.layout.Admits used (listing.lineText text indented)) :
    (listing.writeLine origin text indented).Fits used := by
  have room := fits.makeRoom
  refine ⟨room.margin, room.width, ?_, room.pending⟩
  intro line member filled
  rw [Listing.writeLine, Array.toList_push] at member
  rw [layout_writeLine]
  rcases List.mem_append.mp member with before | added
  · have admits := room.lines line before filled
    rwa [layout_makeRoom] at admits
  · rw [List.mem_singleton.mp added] at filled ⊢
    rw [lineText_makeRoom]
    exact admitted filled

theorem flush (fits : listing.Fits used) : listing.flush.Fits used := by
  have written : (listing.writeLine .code listing.pending true).Fits used :=
    fits.writeLine fun _ => admits_lineText fits.margin fits.width fits.pending
  exact ⟨written.margin, written.width, written.lines, Or.inl rfl⟩

theorem flushAny (fits : listing.Fits used) : listing.flushAny.Fits used := by
  unfold Listing.flushAny
  split
  · exact fits
  · exact fits.flush

theorem endLine (fits : listing.Fits used) (forced : Bool) :
    (listing.endLine forced).Fits used := by
  unfold Listing.endLine
  apply flushAny
  split
  · exact fits.newPage
  · exact fits

/-- A blank more or less at the end of the pending line does not count. -/
theorem drawn (fits : listing.Fits used) (spacing : Spacing) :
    (listing.drawn spacing).Fits used := by
  unfold Listing.drawn dropSeparator
  split
  · split
    · rename_i blank
      obtain ⟨front, split⟩ := List.getLast?_eq_some_iff.mp blank
      have trimmed : Text.trimEnd listing.pending.dropLast = Text.trimEnd listing.pending := by
        rw [split, List.dropLast_concat, Text.trimEnd_append_blank]
      refine ⟨fits.margin, fits.width, fits.lines, Or.inr ?_⟩
      rw [trimmed]
      rcases fits.pending with empty | measured
      · simp [empty] at blank
      · exact measured
    · exact fits
  · exact fits

/-- A lexeme is added to the pending line if it fits there, and begins a line if not. -/
theorem append (fits : listing.Fits used) {lexeme : List Char} (isUsed : used lexeme)
    (spacing : Spacing) : (listing.append lexeme spacing).Fits used := by
  have start := fits.drawn spacing
  rw [append_eq_drawn]
  dsimp only
  generalize listing.drawn spacing = drawn at start ⊢
  have separated (text : List Char) :
      Text.trimEnd (text ++ if spacing.joinsRight then [] else [' ']) = Text.trimEnd text := by
    split
    · rw [List.append_nil]
    · exact Text.trimEnd_append_blank text
  split
  · have flushed := start.flush
    refine ⟨flushed.margin, flushed.width, flushed.lines, Or.inr (Or.inr ⟨lexeme, isUsed, ?_⟩)⟩
    exact separated lexeme
  · rename_i stays
    refine ⟨start.margin, start.width, start.lines, Or.inr ?_⟩
    simp only [separated]
    by_cases empty : drawn.pending = []
    · right
      exact ⟨lexeme, isUsed, by rw [empty, List.nil_append]⟩
    · left
      have narrow : drawn.overflows lexeme = false := by
        simpa [empty] using stays
      have trimmed := (Text.trimEnd_isPrefix (drawn.pending ++ lexeme)).length_le
      rw [List.length_append] at trimmed
      simp only [overflows, decide_eq_false_iff_not, Int.not_lt] at narrow
      omega

theorem apply (fits : listing.Fits used) {resting next : Bool} {command : Command}
    (rests : resting = true → listing.pending = []) (found : command.rest? resting = some next)
    (isUsed : ∀ lexeme spacing, command = .append lexeme spacing → used lexeme)
    (noText : ∀ text indented, command ≠ .write text indented) :
    (listing.apply command).Fits used := by
  cases command with
  | append lexeme spacing => exact fits.append (isUsed lexeme spacing rfl) spacing
  | indent =>
    cases resting with
    | true => exact ⟨fits.margin, fits.width, fits.lines, Or.inl (rests rfl)⟩
    | false => contradiction
  | unindent =>
    cases resting with
    | true => exact ⟨fits.margin, fits.width, fits.lines, Or.inl (rests rfl)⟩
    | false => contradiction
  | endLine forced => exact fits.endLine forced
  | skipLine =>
    have ended := fits.endLine false
    exact ended.writeLine fun _ => admits_lineText ended.margin ended.width (Or.inl rfl)
  | newPage => exact fits.newPage
  | endPage => exact ⟨fits.margin, fits.width, fits.lines, fits.pending⟩
  | directive text => exact (fits.endLine false).writeLine fun filled => Bool.noConfusion filled
  | report text => exact fits.writeLine fun filled => Bool.noConfusion filled
  | write text indented => exact absurd rfl (noText text indented)

/-- The lines that a script fills fit if it changes the depth between lines only. -/
theorem run (fits : listing.Fits used) {resting after : Bool} {script : List Command}
    (rests : resting = true → listing.pending = []) (found : rest? resting script = some after)
    (isUsed : ∀ lexeme spacing, Command.append lexeme spacing ∈ script → used lexeme)
    (noText : ∀ text indented, Command.write text indented ∉ script) :
    (listing.run script).Fits used := by
  induction script generalizing listing resting with
  | nil => exact fits
  | cons command script ih =>
    obtain ⟨next, first, later⟩ := Option.bind_eq_some_iff.mp found
    refine ih ?_ (pending_apply_of_rest? rests first) later ?_ ?_
    · apply fits.apply rests first
      · rintro lexeme spacing rfl
        exact isUsed lexeme spacing List.mem_cons_self
      · rintro text indented rfl
        exact noText text indented List.mem_cons_self
    · intro lexeme spacing member
      exact isUsed lexeme spacing (List.mem_cons_of_mem _ member)
    · intro text indented member
      exact noText text indented (List.mem_cons_of_mem _ member)

end Fits

end Listing

end CListing
