import CListing.Listing.Basic
import CListing.Proofs.Text.Pieces

/-!
# The ink of a listing

The ink of a text is what is left without its blanks. Wrapping, trimming, indentation and page
breaks do not touch it: every command adds the ink of its own text to the listing, behind all ink
that is there. Headings and reports are not of the source and do not count.
-/

namespace CListing

open Unicode

namespace Text

/-- The characters of a text that are not blank. -/
def ink (text : List Char) : List Char :=
  text.filter (!isBlank ·)

@[simp]
theorem ink_nil : ink [] = [] :=
  rfl

@[simp]
theorem ink_append (first second : List Char) : ink (first ++ second) = ink first ++ ink second :=
  List.filter_append _ _

/-- Blanks have no ink. -/
theorem ink_of_blank {text : List Char} (blank : ∀ c ∈ text, isBlank c = true) : ink text = [] := by
  simpa [ink] using blank

@[simp]
theorem ink_spaces (count : Int) : ink (spaces count) = [] := by
  apply ink_of_blank
  intro c member
  rw [List.eq_of_mem_replicate member]
  decide

@[simp]
theorem ink_trimEnd (text : List Char) : ink (trimEnd text) = ink text := by
  obtain ⟨blanks, split, blank⟩ := exists_blank_suffix text
  rw [congrArg ink split, ink_append, ink_of_blank blank, List.append_nil]

/-- The pieces between blank separators have all the ink. -/
theorem ink_flatten_pieces {separator : Char} (blank : isBlank separator = true)
    (text : List Char) : ink (pieces separator text).flatten = ink text := by
  induction text with
  | nil => rfl
  | cons c rest ih =>
    by_cases cut : c = separator
    · have noInk : ink (c :: rest) = ink rest := by simp [ink, cut, blank]
      rw [noInk, ← ih]
      simp [pieces, cut]
    · cases found : pieces separator rest with
      | nil => exact absurd found (pieces_ne_nil separator rest)
      | cons piece more =>
        rw [found, List.flatten_cons] at ih
        rw [pieces_cons_of_ne cut found, List.flatten_cons, List.cons_append]
        simp only [ink, List.filter_cons] at ih ⊢
        rw [ih]

end Text

open Text

/-- The line holds what the source holds; headings and reports do not. -/
def Line.ofSource (line : Line) : Bool :=
  match line.origin with
  | .heading _ | .report => false
  | _ => true

namespace Listing

/-- The ink of the lines whose origin counts, and of the pending line after them. -/
def inkOf (counts : Line.Origin → Bool) (listing : Listing) : List Char :=
  ink ((listing.lines.toList.filter (counts ·.origin)).flatMap (·.text)) ++ ink listing.pending

/-- The ink of the lines of the source, and of the pending line after them. -/
def sourceInk (listing : Listing) : List Char :=
  ink ((listing.lines.toList.filter Line.ofSource).flatMap (·.text)) ++ ink listing.pending

variable (listing : Listing)

theorem pending_makeRoom : listing.makeRoom.pending = listing.pending := by
  unfold makeRoom
  split <;> rfl

@[simp]
theorem pending_flushAny : listing.flushAny.pending = [] := by
  unfold flushAny
  split
  · rename_i empty
    simpa using empty
  · rfl

@[simp]
theorem pending_endLine (forced : Bool) : (listing.endLine forced).pending = [] :=
  pending_flushAny _

theorem ink_lineText (text : List Char) (indented : Bool) :
    ink (listing.lineText text indented) = ink text := by
  unfold lineText
  split
  · rename_i empty
    have noInk := ink_trimEnd text
    rw [empty] at noInk
    exact noInk
  · rw [ink_append, ink_append, ink_spaces, ink_trimEnd]
    cases indented <;> simp [indentText]

/-! ## Lines of which only some count -/

section Counting

variable {counts : Line.Origin → Bool}

theorem inkOf_dropSeparator : listing.dropSeparator.inkOf counts = listing.inkOf counts := by
  unfold dropSeparator
  split
  · rename_i last
    obtain ⟨kept, split⟩ := List.getLast?_eq_some_iff.mp last
    have noInk : ink [' '] = [] := by decide
    simp [inkOf, split, noInk]
  · rfl

variable (noHeading : ∀ number, counts (.heading number) = false)
include noHeading

theorem inkOf_newPage : listing.newPage.inkOf counts = listing.inkOf counts := by
  simp [newPage, inkOf, List.filter_append, noHeading]

theorem inkOf_makeRoom : listing.makeRoom.inkOf counts = listing.inkOf counts := by
  unfold makeRoom
  split
  · exact inkOf_newPage listing noHeading
  · rfl

/-- A line that counts adds its ink before that of the pending line. -/
theorem inkOf_writeLine {origin : Line.Origin} (counted : counts origin = true)
    (empty : listing.pending = []) (text : List Char) (indented : Bool) :
    (listing.writeLine origin text indented).inkOf counts = listing.inkOf counts ++ ink text := by
  have before := inkOf_makeRoom listing noHeading
  have pending := pending_makeRoom listing
  rw [empty] at pending
  simp only [inkOf, pending, empty, ink_nil, List.append_nil] at before
  simp [writeLine, inkOf, List.filter_append, counted, ink_lineText, pending, empty, before]

theorem inkOf_writeLine_of_not {origin : Line.Origin} (hidden : counts origin = false)
    (text : List Char) (indented : Bool) :
    (listing.writeLine origin text indented).inkOf counts = listing.inkOf counts := by
  have before := inkOf_makeRoom listing noHeading
  simp only [inkOf] at before
  simp [writeLine, inkOf, List.filter_append, hidden, before]

variable (code : counts .code = true)
include code

theorem inkOf_flush : listing.flush.inkOf counts = listing.inkOf counts := by
  have before := inkOf_makeRoom listing noHeading
  simp only [inkOf, pending_makeRoom] at before
  have lines := List.append_cancel_right before
  simp [flush, writeLine, inkOf, List.filter_append, code, ink_lineText, lines]

theorem inkOf_endLine (forced : Bool) :
    (listing.endLine forced).inkOf counts = listing.inkOf counts := by
  have flushed (other : Listing) : other.flushAny.inkOf counts = other.inkOf counts := by
    unfold flushAny
    split
    · rfl
    · exact inkOf_flush other noHeading code
  unfold endLine
  rw [flushed]
  split
  · exact inkOf_newPage listing noHeading
  · rfl

/-- An appended lexeme adds its ink. -/
theorem inkOf_append (lexeme : List Char) (spacing : Spacing) :
    (listing.append lexeme spacing).inkOf counts = listing.inkOf counts ++ ink lexeme := by
  have separatorInk : ink (if spacing.joinsRight then [] else [' ']) = [] := by
    split <;> decide
  have pushed (other : Listing) :
      inkOf counts { other with
        pending := other.pending ++ lexeme ++ if spacing.joinsRight then [] else [' '] } =
        other.inkOf counts ++ ink lexeme := by
    simp only [inkOf, ink_append, separatorInk, List.append_nil, List.append_assoc]
  unfold append
  dsimp only
  rw [pushed]
  congr 1
  have flushed (other : Listing) (overflows : Bool) :
      (if overflows then other.flush else other).inkOf counts = other.inkOf counts := by
    split
    · exact inkOf_flush other noHeading code
    · rfl
  rw [flushed]
  split
  · exact inkOf_dropSeparator listing
  · rfl

end Counting

/-! ## Lines of the source -/

theorem sourceInk_eq :
    listing.sourceInk = listing.inkOf fun origin => Line.ofSource ⟨origin, []⟩ :=
  rfl

/-- A line of the source adds its ink before that of the pending line. -/
theorem sourceInk_writeLine {origin : Line.Origin} (counts : Line.ofSource ⟨origin, []⟩ = true)
    (empty : listing.pending = []) (text : List Char) (indented : Bool) :
    (listing.writeLine origin text indented).sourceInk = listing.sourceInk ++ ink text := by
  simp only [sourceInk_eq]
  exact inkOf_writeLine listing (fun _ => rfl) counts empty text indented

theorem sourceInk_writeLine_of_not_counts {origin : Line.Origin}
    (hidden : Line.ofSource ⟨origin, []⟩ = false) (text : List Char) (indented : Bool) :
    (listing.writeLine origin text indented).sourceInk = listing.sourceInk := by
  simp only [sourceInk_eq]
  exact inkOf_writeLine_of_not listing (fun _ => rfl) hidden text indented

@[simp]
theorem sourceInk_endLine (forced : Bool) :
    (listing.endLine forced).sourceInk = listing.sourceInk := by
  simp only [sourceInk_eq]
  exact inkOf_endLine listing (fun _ => rfl) rfl forced

/-- An appended lexeme adds its ink. -/
theorem sourceInk_append (lexeme : List Char) (spacing : Spacing) :
    (listing.append lexeme spacing).sourceInk = listing.sourceInk ++ ink lexeme := by
  simp only [sourceInk_eq]
  exact inkOf_append listing (fun _ => rfl) rfl lexeme spacing

end Listing

end CListing
