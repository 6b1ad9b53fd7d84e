import CListing.Proofs.Reader.Shape
import CListing.Proofs.Reformat.Conservation
import CListing.Proofs.Reformat.Pagination
import CListing.Proofs.Source.ReadBack

/-!
# Empty listings

The text of a listing begins with the form feed of its first heading, unless it is empty. It is
empty exactly if the source has neither tokens nor directives. An empty source gives nothing to note
but its end, if the tokens are noted.
-/

namespace CListing

open Scan Text Unicode

namespace Scan

/-- An item begins with ink. -/
theorem ink_item_ne_nil {text : List Char} (free : ¬ AtBarrier text)
    (noBlank : ∀ c ∈ text.head?, isBlank c = false) (notEnd : (ofText text).category ≠ .endOfFile)
    (noComment : (ofText text).category ≠ .comment) : ink (ofText text).item.lexeme ≠ [] := by
  have inked {c : Char} (noBlank : isBlank c = false) (rest : List Char) :
      ink (c :: rest) ≠ [] := by
    simp [ink, noBlank]
  by_cases directive : (ofText text).category = .directive
  · obtain ⟨rest, rfl, cut⟩ := exists_of_category_directive directive
    obtain ⟨lines, -, extent, trimmed⟩ := exists_extent_directive rest
    obtain ⟨first, others, rfl⟩ := extent.first
    have lexeme : (ofText ('#' :: rest)).item.lexeme =
        joined '\n' (trimEnd ('#' :: first) :: others.map trimEnd) := by
      rw [cut, ← List.map_cons, ← trimmed]
      rfl
    have begins : joined '\n' (trimEnd ('#' :: first) :: others.map trimEnd) =
        trimEnd ('#' :: first) ++ joined '\n' ([] :: others.map trimEnd) := by
      rw [← joined_append, List.append_nil]
    rw [lexeme, begins, ink_append, ink_trimEnd]
    exact fun nothing => inked (by decide) first (List.append_eq_nil_iff.mp nothing).1
  · have token := isToken_of_category notEnd noComment directive
    cases text with
    | nil => exact absurd rfl notEnd
    | cons c rest =>
      obtain ⟨more, extent⟩ := exists_extent_eq_cons free
      have lexeme : (ofText (c :: rest)).item.lexeme = c :: more := token.lexeme.trans extent
      rw [lexeme]
      exact inked (noBlank c rfl) more

end Scan

/-- What is read of a text has ink if it is anything at all. -/
theorem Reads.ink_ne_nil {text : List Char} {items : List Item} {closed : Bool}
    (reads : Reads text items closed) (filled : items ≠ []) :
    ink (items.flatMap (·.lexeme)) ≠ [] := by
  induction reads with
  | ending => contradiction
  | comment _ _ ih => exact ih filled
  | @item text items closed notEnd noComment later ih =>
    have free := (Reads.item notEnd noComment later).free
    have noBlank : ∀ c ∈ (text.dropWhile isBlank).head?, isBlank c = false := by
      intro c first
      have stop := List.head?_dropWhile_not isBlank text
      rw [first] at stop
      simpa using stop
    rw [List.flatMap_cons, ink_append]
    intro nothing
    exact ink_item_ne_nil free noBlank notEnd noComment (List.append_eq_nil_iff.mp nothing).1

/-- A text that begins with ink other than a slash does not read as nothing. -/
theorem Reads.ne_nil {c : Char} {rest : List Char} {items : List Item} {closed : Bool}
    (reads : Reads (c :: rest) items closed) (noBlank : isBlank c = false) (noSlash : c ≠ '/') :
    items ≠ [] := by
  have inked : (c :: rest).dropWhile isBlank = c :: rest := by simp [noBlank]
  rintro rfl
  generalize begins : c :: rest = text at reads
  cases reads with
  | ending category =>
    rw [category_next_eq_endOfFile_iff, ← begins, inked] at category
    contradiction
  | comment category _ =>
    rw [← begins, next, inked] at category
    exact noSlash (opensComment_cons_iff.mp (opensComment_of_category category)).1

/-- A text that does not begin with a form feed begins with no heading. -/
theorem Source.exists_text_cons {c : Char} (noForm : c ≠ '\x0c') (rest : List Char) :
    ∃ more, (ofText (c :: rest)).text = c :: more := by
  obtain ⟨front, later, lines⟩ : ∃ front later,
      splitAfter (· == '\n') (c :: rest) = (c :: front) :: later := by
    rw [splitAfter]
    split
    · exact ⟨[], _, rfl⟩
    · split
      · exact ⟨[], [], rfl⟩
      · exact ⟨_, _, rfl⟩
  have noHeading : Heading.matches? (c :: front) = false := by
    cases heading : Heading.matches? (c :: front) with
    | false => rfl
    | true => exact absurd (Option.some.inj (Heading.head?_of_matches? heading)) noForm
  rw [text, ofText, lines, List.flatMap_cons, withoutHeading_of_not_matches? noHeading]
  exact ⟨_, rfl⟩

theorem Source.items?_ofText_ne_nil {c : Char} (noForm : c ≠ '\x0c') (noBlank : isBlank c = false)
    (noSlash : c ≠ '/') (rest : List Char) : (ofText (c :: rest)).items? ≠ some [] := by
  intro nothing
  obtain ⟨closed, reads⟩ := items?_eq_some_iff.mp nothing
  obtain ⟨more, begins⟩ := exists_text_cons noForm rest
  rw [begins] at reads
  exact reads.ne_nil noBlank noSlash rfl

namespace Formatted

variable {settings : Settings} {name : List Char} {source : Source} {formatted : Formatted}

/-- A listing is empty or begins with a form feed. -/
theorem render_cases (ok : reformat settings name source = .ok formatted) :
    formatted.listing.render = [] ∨ ∃ rest, formatted.listing.render = '\x0c' :: rest := by
  obtain ⟨acceptable, items, closed, -, same⟩ := exists_items_of_ok ok
  have start : (Listing.blank settings.layout name).Paginated :=
    ⟨acceptable.linesPerPage_pos, [], Listing.Paged.blank settings.layout name⟩
  obtain ⟨-, pages, paged⟩ :=
    Listing.keptByPages_paginated.run start (Formatter.ofItems items).script.toList
  rw [← listingOf, ← same] at paged
  rw [paged.render]
  cases pages with
  | nil => exact Or.inl rfl
  | cons page pages => exact Or.inr ⟨_, rfl⟩

/-- A listing is empty exactly if the source has neither tokens nor directives. -/
theorem render_eq_nil_iff (ok : reformat settings name source = .ok formatted) :
    formatted.listing.render = [] ↔ source.items? = some [] := by
  obtain ⟨-, items, closed, reads, same⟩ := exists_items_of_ok ok
  have found : source.items? = some items := Source.items?_eq_some_iff.mpr ⟨closed, reads⟩
  have pending : formatted.listing.pending = [] := by
    rw [same]
    exact pending_listingOf _ _ _
  have written := Listing.sourceInk_run (Formatter.scripted_ofItems reads.sound)
    (Listing.blank settings.layout name)
  rw [← listingOf, ← same] at written
  rw [found, Option.some_inj]
  constructor
  · intro empty
    have noLines : formatted.listing.lines.toList = [] := by
      cases lines : formatted.listing.lines.toList with
      | nil => rfl
      | cons line more => simp [Listing.render, Listing.renderLines, lines] at empty
    have noInk : formatted.listing.sourceInk = [] := by
      rw [Listing.sourceInk, noLines, pending]
      rfl
    by_contra filled
    rw [noInk] at written
    exact reads.ink_ne_nil filled (List.append_eq_nil_iff.mp written.symm).2
  · rintro rfl
    rw [same]
    rfl

/-- What can be read to its end can be formatted. -/
theorem exists_reformat_of_items? (settings : Settings) (acceptable : settings.layout.Acceptable)
    (name : List Char) {items : List Item} (found : source.items? = some items) :
    ∃ formatted, reformat settings name source = .ok formatted := by
  obtain ⟨feed, feedFound, -⟩ := Source.exists_feed found
  exact ⟨_, reformat_eq_ok_iff.mpr ⟨acceptable, feed, feedFound, rfl⟩⟩

/-- An empty source has an empty listing, and there is nothing to note but its end. -/
theorem exists_reformat_nothing (settings : Settings) (acceptable : settings.layout.Acceptable)
    (name : List Char) :
    ∃ formatted, reformat settings name { lines := [] } = .ok formatted ∧
      formatted.listing.render = [] ∧
      formatted.notes = if settings.traced then [.token (.ending 1)] else [] := by
  have noted : (ofSource? settings name { lines := [] }).map (·.notes) =
      some (if settings.traced then [.token (.ending 1)] else []) := by
    obtain ⟨layout, traced⟩ := settings
    cases traced <;> rfl
  obtain ⟨formatted, found, notes⟩ := Option.map_eq_some_iff.mp noted
  have ok := reformat_eq_ok_iff_ofSource?.mpr ⟨acceptable, found⟩
  have items : Source.items? { lines := [] } = some [] := by decide
  exact ⟨formatted, ok, (render_eq_nil_iff ok).mpr items, notes⟩

end Formatted

end CListing
