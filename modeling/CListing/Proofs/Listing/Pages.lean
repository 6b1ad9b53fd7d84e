import CListing.Proofs.Listing.Kept

/-!
# Pages

The lines of a listing are pages one after the other: each a heading with the number of the page and
a body with as many lines as there is room for at most. The counters tell how many pages and lines
there are, and either how many lines the last page has or that it is closed.

A listing is tidy if no page but the last is empty, and the last one is empty only where the next
line will be written on it. Writing a line fills the last page, so afterwards all pages have lines.
-/

namespace CListing

/-- The command stays on the page, and if it adds a lexeme, that has a character. -/
def Command.isSteady : Command → Bool
  | .append lexeme _ => !lexeme.isEmpty
  | command => command.staysOnPage

theorem Command.staysOnPage_of_isSteady {command : Command} (steady : command.isSteady = true) :
    command.staysOnPage = true := by
  cases command <;> first | rfl | exact steady

namespace Listing

/-- The heading of the page with the given number. -/
def headingLine (listing : Listing) (number : Nat) : Line where
  origin := .heading number
  text := Heading.text listing.name listing.layout.headingWidth number

/-- The lines of pages with the given bodies, numbered from one. -/
def pageLines (listing : Listing) (pages : List (List Line)) : List Line :=
  (pages.zipIdx 1).flatMap fun page => listing.headingLine page.2 :: page.1

/-- The listing consists of pages with the given bodies. -/
structure Paged (listing : Listing) (pages : List (List Line)) : Prop where
  lines : listing.lines.toList = listing.pageLines pages
  plain : ∀ page ∈ pages, ∀ line ∈ page, line.isHeading = false
  fits : ∀ page ∈ pages, page.length ≤ listing.layout.linesPerPage
  next : listing.nextPage = pages.length + 1
  written : listing.linesWritten = pages.flatten.length
  filling : listing.linesOnPage = listing.layout.linesPerPage ∨
    ∃ earlier last, pages = earlier ++ [last] ∧ listing.linesOnPage = last.length

theorem pageLines_concat (listing : Listing) (pages : List (List Line)) (body : List Line) :
    listing.pageLines (pages ++ [body]) =
      listing.pageLines pages ++ listing.headingLine (pages.length + 1) :: body := by
  simp [pageLines, List.zipIdx_append, Nat.add_comm]

namespace Paged

variable {listing : Listing} {pages : List (List Line)}

/-- No page is fuller than the layout allows. -/
theorem linesOnPage_le (paged : listing.Paged pages) :
    listing.linesOnPage ≤ listing.layout.linesPerPage := by
  rcases paged.filling with full | ⟨earlier, last, rfl, count⟩
  · exact Int.le_of_eq full
  · rw [count]
    exact paged.fits last (by simp)

theorem blank (layout : Layout) (name : List Char) : (Listing.blank layout name).Paged [] where
  lines := rfl
  plain := by simp
  fits := by simp
  next := rfl
  written := rfl
  filling := Or.inl rfl

theorem withPending (paged : listing.Paged pages) (pending : List Char) :
    { listing with pending := pending }.Paged pages :=
  ⟨paged.lines, paged.plain, paged.fits, paged.next, paged.written, paged.filling⟩

theorem withIndentation (paged : listing.Paged pages) (indentation : Int) :
    { listing with indentation := indentation }.Paged pages :=
  ⟨paged.lines, paged.plain, paged.fits, paged.next, paged.written, paged.filling⟩

theorem endPage (paged : listing.Paged pages) :
    { listing with linesOnPage := listing.layout.linesPerPage }.Paged pages :=
  ⟨paged.lines, paged.plain, paged.fits, paged.next, paged.written, Or.inl rfl⟩

/-- A page is begun. -/
theorem newPage (paged : listing.Paged pages) (room : 0 ≤ listing.layout.linesPerPage) :
    listing.newPage.Paged (pages ++ [[]]) where
  lines := by
    rw [pageLines_concat, ← paged.next]
    simp [Listing.newPage, paged.lines, pageLines, headingLine]
  plain := by
    intro page member
    rcases List.mem_append.mp member with earlier | last
    · exact paged.plain page earlier
    · rw [List.mem_singleton.mp last]
      simp
  fits := by
    intro page member
    rcases List.mem_append.mp member with earlier | last
    · exact paged.fits page earlier
    · rw [List.mem_singleton.mp last]
      exact room
  next := by simp [Listing.newPage, paged.next]
  written := by simp [Listing.newPage, paged.written]
  filling := Or.inr ⟨pages, [], rfl, rfl⟩

/-- A line is added to the last page. -/
theorem push {earlier : List (List Line)} {last : List Line}
    (paged : listing.Paged (earlier ++ [last])) (count : listing.linesOnPage = last.length)
    (room : listing.linesOnPage < listing.layout.linesPerPage) {line : Line}
    (plain : line.isHeading = false) :
    { listing with
      lines := listing.lines.push line
      linesOnPage := listing.linesOnPage + 1
      linesWritten := listing.linesWritten + 1 }.Paged (earlier ++ [last ++ [line]]) where
  lines := by
    have lines := paged.lines
    rw [pageLines_concat] at lines ⊢
    rw [Array.toList_push, lines]
    simp [pageLines, headingLine]
  plain := by
    intro page member other inside
    rcases List.mem_append.mp member with before | added
    · exact paged.plain page (List.mem_append_left _ before) other inside
    · rw [List.mem_singleton.mp added] at inside
      rcases List.mem_append.mp inside with old | new
      · exact paged.plain last (by simp) other old
      · rw [List.mem_singleton.mp new]
        exact plain
  fits := by
    intro page member
    rcases List.mem_append.mp member with before | added
    · exact paged.fits page (List.mem_append_left _ before)
    · rw [List.mem_singleton.mp added, List.length_append, List.length_singleton]
      simp only
      omega
  next := by
    rw [paged.next]
    simp
  written := by
    rw [paged.written]
    simp [Nat.add_assoc]
  filling := by
    refine Or.inr ⟨earlier, last ++ [line], rfl, ?_⟩
    simp [count]

end Paged

/-- The listing consists of pages. -/
def Paginated (listing : Listing) : Prop :=
  1 ≤ listing.layout.linesPerPage ∧ ∃ pages, listing.Paged pages

/-- A line goes to a page of its own if there is no room on the last page. -/
theorem Paged.writeLine_full {listing : Listing} {pages : List (List Line)}
    (paged : listing.Paged pages) (positive : 1 ≤ listing.layout.linesPerPage)
    (full : listing.layout.linesPerPage ≤ listing.linesOnPage) {origin : Line.Origin}
    (body : origin.isBody = true) (text : List Char) (indented : Bool) :
    (listing.writeLine origin text indented).Paged
      (pages ++ [[⟨origin, listing.lineText text indented⟩]]) := by
  have begun := paged.newPage (Int.le_trans (by decide) positive)
  have written := begun.push rfl (Int.lt_of_lt_of_le Int.zero_lt_one positive)
    (Line.isHeading_of_isBody body (listing.newPage.lineText text indented))
  have room : listing.makeRoom = listing.newPage := if_pos full
  rw [Listing.writeLine, room]
  exact written

/-- A line goes to the last page if there is room on it. -/
theorem Paged.writeLine_room {listing : Listing} {earlier : List (List Line)} {last : List Line}
    (paged : listing.Paged (earlier ++ [last])) (count : listing.linesOnPage = last.length)
    (room : listing.linesOnPage < listing.layout.linesPerPage) {origin : Line.Origin}
    (body : origin.isBody = true) (text : List Char) (indented : Bool) :
    (listing.writeLine origin text indented).Paged
      (earlier ++ [last ++ [⟨origin, listing.lineText text indented⟩]]) := by
  have written := paged.push count room
    (Line.isHeading_of_isBody body (listing.lineText text indented))
  have stays : listing.makeRoom = listing := if_neg (Int.not_le.mpr room)
  rw [Listing.writeLine, stays]
  exact written

/-- If the last page is not full, it is counted. -/
theorem Paged.exists_last {listing : Listing} {pages : List (List Line)}
    (paged : listing.Paged pages) (room : listing.linesOnPage < listing.layout.linesPerPage) :
    ∃ earlier last, pages = earlier ++ [last] ∧ listing.linesOnPage = last.length := by
  rcases paged.filling with full | counted
  · omega
  · exact counted

theorem keptByPages_paginated : KeptByPages Paginated where
  pending := by
    rintro listing ⟨positive, pages, paged⟩ pending
    exact ⟨positive, pages, paged.withPending pending⟩
  indentation := by
    rintro listing ⟨positive, pages, paged⟩ indentation
    exact ⟨positive, pages, paged.withIndentation indentation⟩
  writeLine := by
    rintro listing ⟨positive, pages, paged⟩ origin body text indented
    refine ⟨by rwa [layout_writeLine], ?_⟩
    by_cases full : listing.layout.linesPerPage ≤ listing.linesOnPage
    · exact ⟨_, paged.writeLine_full positive full body text indented⟩
    · have room := Int.not_le.mp full
      obtain ⟨earlier, last, rfl, count⟩ := paged.exists_last room
      exact ⟨_, paged.writeLine_room count room body text indented⟩
  newPage := by
    rintro listing ⟨positive, pages, paged⟩
    exact ⟨positive, _, paged.newPage (Int.le_trans (by decide) positive)⟩
  endPage := by
    rintro listing ⟨positive, pages, paged⟩
    exact ⟨positive, pages, paged.endPage⟩

/-! ## Pages with lines -/

/-- Every page has a line. -/
def Filled (listing : Listing) : Prop :=
  1 ≤ listing.layout.linesPerPage ∧
    ∃ pages, listing.Paged pages ∧ ∀ page ∈ pages, page ≠ []

/-- The last page was begun and has no line yet, but will get the next one. -/
def Begun (listing : Listing) : Prop :=
  1 ≤ listing.layout.linesPerPage ∧ listing.linesOnPage = 0 ∧
    ∃ earlier, listing.Paged (earlier ++ [[]]) ∧ ∀ page ∈ earlier, page ≠ []

/-- No page but perhaps the last is empty. -/
def Tidy (listing : Listing) : Prop :=
  listing.Filled ∨ listing.Begun

/-- Every page has a line as soon as the pending line is written. -/
def Settling (listing : Listing) : Prop :=
  listing.Filled ∨ listing.Begun ∧ listing.pending ≠ []

theorem filled_blank {layout : Layout} (positive : 1 ≤ layout.linesPerPage) (name : List Char) :
    (Listing.blank layout name).Filled :=
  ⟨positive, [], Paged.blank layout name, by simp⟩

section Lines

variable {listing : Listing}

/-- After a line every page has one. -/
theorem Tidy.writeLine (tidy : listing.Tidy) {origin : Line.Origin} (body : origin.isBody = true)
    (text : List Char) (indented : Bool) : (listing.writeLine origin text indented).Filled := by
  rcases tidy with ⟨positive, pages, paged, filled⟩ | ⟨positive, empty, earlier, paged, filled⟩
  · refine ⟨by rwa [layout_writeLine], ?_⟩
    by_cases full : listing.layout.linesPerPage ≤ listing.linesOnPage
    · refine ⟨_, paged.writeLine_full positive full body text indented, ?_⟩
      intro page member
      rcases List.mem_append.mp member with before | added
      · exact filled page before
      · simp [List.mem_singleton.mp added]
    · have room := Int.not_le.mp full
      obtain ⟨earlier, last, rfl, count⟩ := paged.exists_last room
      refine ⟨_, paged.writeLine_room count room body text indented, ?_⟩
      intro page member
      rcases List.mem_append.mp member with before | added
      · exact filled page (List.mem_append_left _ before)
      · simp [List.mem_singleton.mp added]
  · have room : listing.linesOnPage < listing.layout.linesPerPage := by omega
    refine ⟨by rwa [layout_writeLine], _, paged.writeLine_room empty room body text indented, ?_⟩
    intro page member
    rcases List.mem_append.mp member with before | added
    · exact filled page before
    · simp [List.mem_singleton.mp added]

theorem keptByLines_filled : KeptByLines Filled where
  pending := by
    rintro listing ⟨positive, pages, paged, filled⟩ pending
    exact ⟨positive, pages, paged.withPending pending, filled⟩
  indentation := by
    rintro listing ⟨positive, pages, paged, filled⟩ indentation
    exact ⟨positive, pages, paged.withIndentation indentation, filled⟩
  writeLine filled _ body text indented := Tidy.writeLine (Or.inl filled) body text indented

theorem Begun.withPending (begun : listing.Begun) (pending : List Char) :
    Begun { listing with pending := pending } := by
  obtain ⟨positive, empty, earlier, paged, filled⟩ := begun
  exact ⟨positive, empty, earlier, paged.withPending pending, filled⟩

theorem Begun.withIndentation (begun : listing.Begun) (indentation : Int) :
    Begun { listing with indentation := indentation } := by
  obtain ⟨positive, empty, earlier, paged, filled⟩ := begun
  exact ⟨positive, empty, earlier, paged.withIndentation indentation, filled⟩

theorem keptByLines_tidy : KeptByLines Tidy where
  pending tidy pending :=
    tidy.imp (keptByLines_filled.pending · pending) (Begun.withPending · pending)
  indentation tidy indentation :=
    tidy.imp (keptByLines_filled.indentation · indentation) (Begun.withIndentation · indentation)
  writeLine tidy _ body text indented := Or.inl (tidy.writeLine body text indented)

/-- A pending line that is ended is written. -/
theorem Settling.endLine (settling : listing.Settling) : (listing.endLine false).Filled := by
  rcases settling with filled | ⟨begun, pending⟩
  · exact keptByLines_filled.endLine filled
  · have written : listing.endLine false = listing.flush :=
      if_neg (by simpa using pending)
    rw [written]
    exact keptByLines_filled.pending (Tidy.writeLine (Or.inr begun) rfl _ _) []

/-- With a lexeme the pending line is not empty. -/
theorem Tidy.append (tidy : listing.Tidy) {lexeme : List Char} (nonempty : lexeme ≠ [])
    (spacing : Spacing) : (listing.append lexeme spacing).Settling := by
  have pending : (listing.append lexeme spacing).pending ≠ [] := by
    simp [Listing.append, nonempty]
  exact (keptByLines_tidy.append tidy lexeme spacing).imp id fun begun => ⟨begun, pending⟩

/-- A forced end of line begins a page, unless the last page has no line yet. -/
theorem Tidy.force (tidy : listing.Tidy) : (listing.endLine true).Tidy := by
  unfold Listing.endLine
  dsimp only
  apply keptByLines_tidy.flushAny
  split
  · rename_i room
    rcases tidy with ⟨positive, pages, paged, filled⟩ | ⟨_, empty, _⟩
    · exact Or.inr ⟨positive, rfl, pages, paged.newPage (by omega), filled⟩
    · simp [empty] at room
  · exact tidy

theorem Filled.endPage (filled : listing.Filled) : (listing.apply .endPage).Filled := by
  obtain ⟨positive, pages, paged, filled⟩ := filled
  exact ⟨positive, pages, paged.endPage, filled⟩

/-- Steady commands do not keep the pending line from being written. -/
theorem Settling.apply (settling : listing.Settling) {command : Command}
    (steady : command.isSteady = true) : (listing.apply command).Settling := by
  rcases settling with filled | ⟨begun, pending⟩
  · exact Or.inl (keptByLines_filled.apply filled (Command.staysOnPage_of_isSteady steady))
  · have ended : (listing.endLine false).Filled := Settling.endLine (Or.inr ⟨begun, pending⟩)
    cases command with
    | append lexeme spacing =>
      exact Tidy.append (Or.inr begun) (by simpa [Command.isSteady] using steady) spacing
    | indent => exact Or.inr ⟨begun.withIndentation _, pending⟩
    | unindent => exact Or.inr ⟨begun.withIndentation _, pending⟩
    | endLine forced =>
      cases forced with
      | false => exact Or.inl ended
      | true => contradiction
    | skipLine => exact Or.inl (Tidy.writeLine (Or.inl ended) rfl _ _)
    | newPage => contradiction
    | endPage => contradiction
    | directive text => exact Or.inl (Tidy.writeLine (Or.inl ended) rfl _ _)
    | report text => exact Or.inl (Tidy.writeLine (Or.inr begun) rfl _ _)
    | write text indented => exact Or.inl (Tidy.writeLine (Or.inr begun) rfl _ _)

end Lines

end Listing

end CListing
