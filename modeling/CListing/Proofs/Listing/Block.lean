import CListing.Proofs.Listing.Carried
import CListing.Proofs.Listing.Pages

/-!
# Lines below each other

The lines of a directive are written one after the other, and nothing comes between them but the
headings of pages. A page begins in front of a line exactly if the page before it is full: the lines
on a page are counted from the first line of the directive on, whatever closed the page before.
-/

namespace CListing

/-- The number of lines on the last page. -/
def lastPage (lines : List Line) : Nat :=
  (lines.reverse.takeWhile (!·.isHeading)).length

section LastPage

variable {lines : List Line} {line : Line}

theorem lastPage_heading (heading : line.isHeading = true) : lastPage (lines ++ [line]) = 0 := by
  simp [lastPage, heading]

theorem lastPage_body (body : line.isHeading = false) :
    lastPage (lines ++ [line]) = lastPage lines + 1 := by
  simp [lastPage, body]

/-- Behind a heading the lines of its page are counted. -/
theorem lastPage_page (heading : line.isHeading = true) {page : List Line}
    (plain : ∀ other ∈ page, other.isHeading = false) :
    lastPage (lines ++ line :: page) = page.length := by
  have body : ∀ other ∈ page.reverse, (!other.isHeading) = true := by
    simpa using plain
  rw [lastPage, List.reverse_append, List.reverse_cons, List.append_assoc,
    List.takeWhile_append_of_pos body]
  simp [heading]

end LastPage

/-- Each line behind the earlier ones is a heading exactly if the page before it is full. -/
def Paginates (perPage : Int) : List Line → List Line → Prop
  | _, [] => True
  | earlier, line :: later =>
    (line.isHeading = true ↔ (lastPage earlier : Int) = perPage) ∧
      Paginates perPage (earlier ++ [line]) later

/-- Behind the earlier lines there is one that is no heading, and from there on the others are
headings exactly where a page is full. -/
def Unbroken (perPage : Int) (earlier : List Line) : List Line → Prop
  | [] => False
  | first :: later => first.isHeading = false ∧ Paginates perPage (earlier ++ [first]) later

namespace Listing

variable {listing : Listing}

/-- The lines on the page are those behind its heading. -/
def Counted (listing : Listing) : Prop :=
  listing.linesOnPage = lastPage listing.lines.toList

theorem counted_newPage (listing : Listing) : listing.newPage.Counted := by
  rw [Counted, newPage, Array.toList_push, lastPage_heading rfl]
  rfl

/-- A page that is not full is counted. -/
theorem Paginated.counted_makeRoom (paginated : listing.Paginated) : listing.makeRoom.Counted := by
  obtain ⟨_, pages, paged⟩ := paginated
  unfold makeRoom
  split
  · exact counted_newPage listing
  · rename_i room
    obtain ⟨earlier, last, rfl, count⟩ := paged.exists_last (Int.not_le.mp room)
    rw [Counted, paged.lines, pageLines_concat,
      lastPage_page rfl (paged.plain last (by simp)), count]

/-- A line that is written is one more on its page. -/
theorem Paginated.counted_writeLine (paginated : listing.Paginated) {origin : Line.Origin}
    (body : origin.isBody = true) (text : List Char) (indented : Bool) :
    (listing.writeLine origin text indented).Counted := by
  have count := paginated.counted_makeRoom
  have noHeading (text : List Char) : Line.isHeading ⟨origin, text⟩ = false := by
    cases origin <;> first | rfl | contradiction
  rw [Counted] at count ⊢
  rw [writeLine, Array.toList_push, lastPage_body (noHeading _), count]
  rfl

theorem Paginated.counted_directive (paginated : listing.Paginated) (empty : listing.pending = [])
    (text : List Char) : (listing.apply (.directive text)).Counted := by
  rw [apply, endLine_of_nil empty]
  exact paginated.counted_writeLine rfl text false

/-- A heading comes before the next line exactly if the page is full. -/
theorem lines_makeRoom_of_counted (paginated : listing.Paginated) (counted : listing.Counted) :
    ((lastPage listing.lines.toList : Int) = listing.layout.linesPerPage ∧
        ∃ heading : Line, heading.isHeading = true ∧
          listing.makeRoom.lines.toList = listing.lines.toList ++ [heading]) ∨
      ((lastPage listing.lines.toList : Int) ≠ listing.layout.linesPerPage ∧
        listing.makeRoom.lines.toList = listing.lines.toList) := by
  obtain ⟨_, pages, paged⟩ := paginated
  have most := paged.linesOnPage_le
  rw [Counted] at counted
  unfold makeRoom
  split
  · rename_i full
    exact Or.inl ⟨by omega, _, rfl, Array.toList_push⟩
  · rename_i room
    exact Or.inr ⟨by omega, rfl⟩

/-- The line of a directive at the margin. -/
def copy (listing : Listing) (text : List Char) : Line where
  origin := .directive
  text := printed listing.layout.leftMargin text

theorem copy_of_layout {other : Listing} (same : other.layout = listing.layout) :
    other.copy = listing.copy := by
  funext text
  rw [copy, copy, same]

/-- Lines of directives go below each other, with headings between them where pages are full. -/
theorem exists_block (paginated : listing.Paginated) (counted : listing.Counted)
    (empty : listing.pending = []) {texts : List (List Char)}
    (trimmed : ∀ text ∈ texts, Text.trimEnd text = text) :
    ∃ block, (listing.run (texts.map .directive)).lines.toList = listing.lines.toList ++ block ∧
      block.filter (!·.isHeading) = texts.map listing.copy ∧
      Paginates listing.layout.linesPerPage listing.lines.toList block := by
  induction texts generalizing listing with
  | nil => exact ⟨[], by simp, rfl, trivial⟩
  | cons text texts ih =>
    have first : (listing.apply (.directive text)).lines.toList =
        listing.makeRoom.lines.toList ++ [listing.copy text] :=
      lines_apply_directive empty (trimmed text List.mem_cons_self)
    have layout := layout_apply_directive empty text
    obtain ⟨block, lines, copies, headings⟩ := ih
      (keptByPages_paginated.apply paginated (.directive text))
      (paginated.counted_directive empty text) (pending_apply_directive text)
      (fun later member => trimmed later (List.mem_cons_of_mem _ member))
    have plain : (listing.copy text).isHeading = false := rfl
    rw [copy_of_layout layout] at copies
    rw [layout, first] at headings
    rw [first] at lines
    rw [List.map_cons, run_cons, lines, List.map_cons, ← copies]
    rcases lines_makeRoom_of_counted paginated counted with
      ⟨full, heading, isHeading, headed⟩ | ⟨room, same⟩
    · have positive := paginated.1
      have begun := @lastPage_heading listing.lines.toList heading isHeading
      rw [headed] at headings ⊢
      refine ⟨heading :: listing.copy text :: block, by simp, by simp [isHeading, plain], ?_, ?_,
        headings⟩
      · exact iff_of_true isHeading full
      · rw [begun, plain]
        exact iff_of_false (by decide) (by omega)
    · rw [same] at headings ⊢
      refine ⟨listing.copy text :: block, by simp, by simp [plain], ?_, headings⟩
      rw [plain]
      exact iff_of_false (by decide) room

/-- The lines of a directive begin behind the heading of the page, if there is one. -/
theorem exists_unbroken (paginated : listing.Paginated) (empty : listing.pending = [])
    {texts : List (List Char)} (nonempty : texts ≠ [])
    (trimmed : ∀ text ∈ texts, Text.trimEnd text = text) :
    ∃ block, (listing.run (texts.map .directive)).lines.toList =
        listing.makeRoom.lines.toList ++ block ∧
      block.filter (!·.isHeading) = texts.map listing.copy ∧
      Unbroken listing.layout.linesPerPage listing.makeRoom.lines.toList block := by
  cases texts with
  | nil => contradiction
  | cons text texts =>
    have first : (listing.apply (.directive text)).lines.toList =
        listing.makeRoom.lines.toList ++ [listing.copy text] :=
      lines_apply_directive empty (trimmed text List.mem_cons_self)
    have layout := layout_apply_directive empty text
    obtain ⟨block, lines, copies, headings⟩ := exists_block
      (keptByPages_paginated.apply paginated (.directive text))
      (paginated.counted_directive empty text) (pending_apply_directive text)
      (fun later member => trimmed later (List.mem_cons_of_mem _ member))
    have plain : (listing.copy text).isHeading = false := rfl
    rw [copy_of_layout layout] at copies
    rw [layout, first] at headings
    refine ⟨listing.copy text :: block, ?_, by simp [plain, copies], plain, headings⟩
    rw [List.map_cons, run_cons, lines, first, List.append_assoc, List.singleton_append]

end Listing

end CListing
