import CListing.Proofs.Formatter.Paging
import CListing.Proofs.Listing.Lacking
import CListing.Proofs.Reformat.Determinacy

/-!
# Pagination

A listing is a sequence of numbered pages whatever the script is, and the listing of a source has a
line on each of its pages.
-/

namespace CListing

namespace Listing

/-- The text of pages with the given bodies, numbered from one. -/
def pagesText (layout : Layout) (name : List Char) (pages : List (List Line)) : List Char :=
  (pages.zipIdx 1).flatMap fun page =>
    Heading.text name layout.headingWidth page.2 ++ '\n' :: renderLines page.1

/-- The text of a listing is the text of its pages. -/
theorem Paged.render {listing : Listing} {pages : List (List Line)}
    (paged : listing.Paged pages) :
    listing.render = pagesText listing.layout listing.name pages := by
  rw [Listing.render, paged.lines, pageLines, renderLines, List.flatMap_assoc, pagesText]
  simp [renderLines, headingLine]

/-! ## Lines without line feeds -/

/-- No line holds a line feed, headings apart, and the pending line holds none. -/
abbrev Feedless (listing : Listing) : Prop :=
  listing.Lacks '\n'

theorem Feedless.run {listing : Listing} (feedless : listing.Feedless) {script : List Command}
    (plain : ∀ command ∈ script, '\n' ∉ command.text) : (listing.run script).Feedless :=
  Lacks.run feedless (by decide) plain

/-! ## Headings stand before lines -/

/-- Behind every heading stands a line that is none. -/
def HeadsLines (lines : List Line) : Prop :=
  ∀ earlier heading later, lines = earlier ++ heading :: later → heading.isHeading = true →
    ∃ next rest, later = next :: rest ∧ next.isHeading = false

theorem HeadsLines.page {heading first : Line} {body rest : List Line}
    (plain : ∀ line ∈ first :: body, line.isHeading = false) (heads : HeadsLines rest) :
    HeadsLines (heading :: (first :: body) ++ rest) := by
  intro earlier found later split head
  cases earlier with
  | nil =>
    obtain ⟨-, rfl⟩ := List.cons.inj split
    exact ⟨first, body ++ rest, rfl, plain first List.mem_cons_self⟩
  | cons other earlier =>
    obtain ⟨-, split⟩ := List.cons.inj split
    rcases List.append_eq_append_iff.mp split with ⟨middle, _, after⟩ | ⟨middle, inside, after⟩
    · exact heads middle found later after head
    · cases middle with
      | nil => exact heads [] found later after.symm head
      | cons c middle =>
        obtain ⟨rfl, _⟩ := List.cons.inj after
        have member : found ∈ first :: body := by
          rw [inside]
          simp
        rw [plain found member] at head
        contradiction

theorem headsLines_pages (listing : Listing) {pages : List (List Line)}
    (plain : ∀ page ∈ pages, ∀ line ∈ page, line.isHeading = false)
    (nonempty : ∀ page ∈ pages, page ≠ []) (number : Nat) :
    HeadsLines
      ((pages.zipIdx number).flatMap fun page => listing.headingLine page.2 :: page.1) := by
  induction pages generalizing number with
  | nil =>
    intro earlier heading later split
    simp at split
  | cons body pages ih =>
    have later := ih (fun page member => plain page (List.mem_cons_of_mem _ member))
      (fun page member => nonempty page (List.mem_cons_of_mem _ member)) (number + 1)
    cases body with
    | nil => exact absurd rfl (nonempty [] List.mem_cons_self)
    | cons first body =>
      rw [List.zipIdx_cons, List.flatMap_cons]
      exact later.page (plain (first :: body) List.mem_cons_self)

/-- In a listing whose pages have lines, a line follows every heading. -/
theorem Filled.headsLines {listing : Listing} (filled : listing.Filled) :
    HeadsLines listing.lines.toList := by
  obtain ⟨_, pages, paged, nonempty⟩ := filled
  rw [paged.lines]
  exact headsLines_pages listing paged.plain nonempty 1

theorem mem_pageLines (listing : Listing) {pages : List (List Line)} {page : List Line}
    (member : page ∈ pages) {line : Line} (inside : line ∈ page) :
    line ∈ listing.pageLines pages := by
  rw [← List.zipIdx_map_fst 1 pages] at member
  obtain ⟨⟨body, number⟩, found, rfl⟩ := List.mem_map.mp member
  exact List.mem_flatMap.mpr ⟨(body, number), found, List.mem_cons_of_mem _ inside⟩

/-- The headings of pages are the only ones. -/
theorem countP_isHeading_pages (listing : Listing) {pages : List (List Line)}
    (plain : ∀ page ∈ pages, ∀ line ∈ page, line.isHeading = false) (number : Nat) :
    ((pages.zipIdx number).flatMap fun page =>
      listing.headingLine page.2 :: page.1).countP (·.isHeading) = pages.length := by
  induction pages generalizing number with
  | nil => rfl
  | cons body pages ih =>
    have none : body.countP (·.isHeading) = 0 := by
      rw [List.countP_eq_zero]
      intro line member
      simp [plain body List.mem_cons_self line member]
    have later := ih (fun page member => plain page (List.mem_cons_of_mem _ member)) (number + 1)
    have head : (listing.headingLine number).isHeading = true := rfl
    rw [List.zipIdx_cons, List.flatMap_cons, List.countP_append, List.countP_cons, later, none]
    simp [head, Nat.add_comm]

end Listing

/-- The pages of listings. Whatever a script without line feeds does, its listing is made of pages
numbered from one, each a heading and at most as many lines as the layout allows; the counters tell
how many pages and lines there are, and how many lines the last page has unless it is closed. In the
listing of a source a line that is no heading follows every heading. -/
theorem listing_pages :
    (∀ (layout : Layout) (name : List Char) (script : List Command), 1 ≤ layout.linesPerPage →
      (∀ command ∈ script, '\n' ∉ command.text) →
        let listing := (Listing.blank layout name).run script
        ∃ pages, listing.render = Listing.pagesText layout name pages ∧
          (∀ page ∈ pages, page.length ≤ layout.linesPerPage ∧
            ∀ line ∈ page, line.isHeading = false ∧ '\n' ∉ line.text) ∧
          listing.pagesWritten = pages.length ∧
          listing.lines.toList.countP (·.isHeading) = pages.length ∧
          listing.linesWritten = pages.flatten.length ∧
          listing.linesOnPage ≤ layout.linesPerPage ∧
          (listing.linesOnPage = layout.linesPerPage ∨
            ∃ last, pages.getLast? = some last ∧ listing.linesOnPage = last.length)) ∧
      ∀ (settings : Settings) (name : List Char) (source : Source) (formatted : Formatted),
        reformat settings name source = .ok formatted →
          (∃ pages, formatted.listing.render = Listing.pagesText settings.layout name pages ∧
            ∀ page ∈ pages, page ≠ []) ∧
          Listing.HeadsLines formatted.listing.lines.toList := by
  constructor
  · intro layout name script positive plain
    have kept := Listing.keptByPages_paginated.run
      (⟨positive, [], Listing.Paged.blank layout name⟩ : (Listing.blank layout name).Paginated)
      script
    have frame : ((Listing.blank layout name).run script).layout = layout :=
      Listing.layout_run _ script
    have named : ((Listing.blank layout name).run script).name = name := Listing.name_run _ script
    have feedless : ((Listing.blank layout name).run script).Feedless :=
      Listing.Feedless.run ⟨by simp [Listing.blank], by simp [Listing.blank]⟩ plain
    generalize (Listing.blank layout name).run script = listing at *
    subst frame named
    obtain ⟨_, pages, paged⟩ := kept
    refine ⟨pages, paged.render, fun page member => ⟨paged.fits page member, fun line inside => ?_⟩,
      ?_, ?_, paged.written, paged.linesOnPage_le, ?_⟩
    · have body := paged.plain page member line inside
      refine ⟨body, feedless.lines line ?_ body⟩
      rw [paged.lines]
      exact Listing.mem_pageLines listing member inside
    · rw [Listing.pagesWritten, paged.next]
      rfl
    · rw [paged.lines]
      exact Listing.countP_isHeading_pages listing paged.plain 1
    · refine paged.filling.imp id ?_
      rintro ⟨earlier, last, rfl, count⟩
      exact ⟨last, List.getLast?_concat, count⟩
  · intro settings name source formatted ok
    obtain ⟨acceptable, items, closed, reads, same⟩ := Formatted.exists_items_of_ok ok
    have filled : (Formatted.listingOf settings.layout name items).Filled :=
      Formatter.filled_ofItems reads.sound acceptable.linesPerPage_pos name
    have frame : (Formatted.listingOf settings.layout name items).layout = settings.layout :=
      Listing.layout_run _ _
    have named : (Formatted.listingOf settings.layout name items).name = name :=
      Listing.name_run _ _
    rw [← same] at filled frame named
    refine ⟨?_, filled.headsLines⟩
    obtain ⟨_, pages, paged, nonempty⟩ := filled
    refine ⟨pages, ?_, nonempty⟩
    rw [paged.render, frame, named]

/-- A line that is forced onto a page, a page without lines, a closed page and a report after it;
and the two functions of a source on pages of two lines. -/
theorem listing_pages_forced :
    (1 : Int) ≤ ({ linesPerPage := 2 } : Layout).linesPerPage ∧
      (∃ pages,
        ((Listing.blank { linesPerPage := 2 } ['f']).run
            [.append ['x'] .free, .endLine true, .newPage, .endPage, .report ['r']]).render =
          Listing.pagesText { linesPerPage := 2 } ['f'] pages) ∧
      ∃ formatted,
        reformat { layout := { linesPerPage := 2 } } ['f']
            (Source.ofText "int f() \x7b\x7d int g() \x7b".toList) = .ok formatted ∧
          Listing.HeadsLines formatted.listing.lines.toList := by
  obtain ⟨scripts, sources⟩ := listing_pages
  obtain ⟨pages, render, _⟩ := scripts { linesPerPage := 2 } ['f']
    [.append ['x'] .free, .endLine true, .newPage, .endPage, .report ['r']] (by decide) (by decide)
  have run : (reformat { layout := { linesPerPage := 2 } } ['f']
      (Source.ofText "int f() \x7b\x7d int g() \x7b".toList)).toOption.any (fun _ => true) =
        true := by
    decide +kernel
  obtain ⟨formatted, ok, _⟩ := exists_ok_of_any run
  exact ⟨by decide, ⟨pages, render⟩, formatted, ok, (sources _ _ _ formatted ok).2⟩

end CListing
