import CListing.Proofs.Formatter.Bare
import CListing.Proofs.Formatter.Guard
import CListing.Proofs.Formatter.Invariant
import CListing.Proofs.Listing.Pages
import CListing.Proofs.Reader.FeedCommands

/-!
# Pages of a walk

The walk begins a page before the body of a function and closes it behind the body. Nothing else in
it begins or closes pages. The body begins with a brace, which is written or reported missing before
the page is closed, so no page of a walk is left without a line.
-/

namespace CListing

/-- What the feed brings along stays on the page, and its opening braces have a character. -/
structure Feed.Steady (feed : Feed) : Prop where
  script : ∀ fetch ∈ feed.ahead, ∀ command ∈ fetch.script, command.isSteady = true
  brace : ∀ fetch ∈ feed.ahead, fetch.token.category = .leftBrace → fetch.token.lexeme ≠ []
  closing : ∀ command ∈ feed.closing, command.isSteady = true

namespace Feed

theorem Steady.fetch {feed : Feed} (steady : feed.Steady) :
    (∀ command ∈ feed.fetch.1.commands, command.isSteady = true) ∧
      (feed.fetch.1.token.category = .leftBrace → feed.fetch.1.token.lexeme ≠ []) ∧
      feed.fetch.2.Steady := by
  have all : feed.AllCommands (·.isSteady) := ⟨steady.script, steady.closing⟩
  obtain ⟨commands, script, closing⟩ := all.fetch rfl
  have braces : (feed.fetch.1.token.category = .leftBrace → feed.fetch.1.token.lexeme ≠ []) ∧
      ∀ fetch ∈ feed.fetch.2.ahead,
        fetch.token.category = .leftBrace → fetch.token.lexeme ≠ [] := by
    rcases feed.cases_ahead with ⟨empty, _⟩ | ⟨first, rest, rfl⟩
    · rw [fetch_of_ahead_eq_nil empty]
      exact ⟨fun brace => Category.noConfusion brace, steady.brace⟩
    · rw [fetch_cons]
      exact ⟨steady.brace first List.mem_cons_self,
        fun fetch member => steady.brace fetch (List.mem_cons_of_mem _ member)⟩
  exact ⟨commands, braces.1, script, braces.2, closing⟩

/-- What precedes a feed leaves its tokens alone. -/
theorem exists_of_mem_precede {script : List Command} {notes : List Note} {feed : Feed}
    {fetch : Fetch} (member : fetch ∈ (feed.precede script notes).ahead) :
    ∃ own ∈ feed.ahead, fetch.token = own.token := by
  obtain ⟨ahead, size, lastLine, closing, closingNotes, size_eq⟩ := feed
  cases ahead with
  | nil => contradiction
  | cons first rest =>
    rcases List.mem_cons.mp member with rfl | later
    · exact ⟨first, List.mem_cons_self, rfl⟩
    · exact ⟨fetch, List.mem_cons_of_mem _ later, rfl⟩

theorem steady_ofItems {items : List Item} (sound : ∀ item ∈ items, item.Sound) :
    (ofItems items).Steady := by
  obtain ⟨script, closing⟩ :=
    @allCommands_ofItems (·.isSteady) rfl (fun _ => rfl) items
  refine ⟨script, ?_, closing⟩
  clear script closing
  induction items with
  | nil => simp [ofItems]
  | cons item items ih =>
    have later := ih fun other member => sound other (List.mem_cons_of_mem _ member)
    intro fetch member
    rw [ofItems] at member
    split at member
    · obtain ⟨own, inside, same⟩ := exists_of_mem_precede member
      rw [same]
      exact later own inside
    · rename_i token
      have nonempty := (sound item List.mem_cons_self).nonempty (by simpa using token)
      rcases List.mem_cons.mp member with rfl | inside
      · exact fun _ => nonempty
      · exact later fetch inside

end Feed

namespace Formatter

/-- The listing that the script of the walk so far makes of an empty one. -/
def listingOn (layout : Layout) (name : List Char) (formatter : Formatter Feed) : Listing :=
  (Listing.blank layout name).run formatter.script.toList

/-- What is still to come stays on the page, and an opening brace has a character. -/
structure Steady (formatter : Formatter Feed) : Prop where
  source : formatter.cursor.source.Steady
  brace : formatter.cursor.current.category = .leftBrace →
    formatter.cursor.current.lexeme ≠ []
  focus : formatter.Focused

variable {layout : Layout} {name : List Char} {f : Formatter Feed}

theorem Steady.perform (steady : f.Steady) (command : Command) : (f.perform command).Steady :=
  ⟨steady.source, steady.brace, steady.focus⟩

theorem listingOn_perform (command : Command) :
    (f.perform command).listingOn layout name = (f.listingOn layout name).apply command := by
  simp [listingOn, perform, Listing.run_append]

theorem listingOn_reportMissing (required : Category) :
    (f.reportMissing required).listingOn layout name =
      (f.listingOn layout name).apply (.report ("MISSING " ++ required.name).toList) := by
  simp [listingOn, reportMissing, Listing.run_append]

theorem listingOn_advance (free : f.cursor.lookahead? = none) :
    f.advance.listingOn layout name = (f.listingOn layout name).run
      (f.cursor.release ++ f.cursor.source.fetch.1.commands) := by
  rw [advance_of_free free]
  simp [listingOn, Listing.run_append]

/-- An advance carries out steady commands only. -/
theorem Steady.advance (steady : f.Steady) :
    f.advance.Steady ∧ ∃ script, (∀ command ∈ script, command.isSteady = true) ∧
      f.advance.listingOn layout name = (f.listingOn layout name).run script := by
  rcases steady.focus with ⟨free, _⟩ | ⟨put, _⟩
  · obtain ⟨commands, brace, source⟩ := steady.source.fetch
    refine ⟨?_, f.cursor.release ++ f.cursor.source.fetch.1.commands, ?_, ?_⟩
    · refine ⟨?_, ?_, focused_advance f⟩
      · rw [advance_of_free free]
        exact source
      · rw [advance_of_free free]
        exact brace
    · intro command member
      rcases List.mem_append.mp member with released | fetched
      · unfold Cursor.release at released
        split at released
        · contradiction
        · rename_i nonempty
          rw [List.mem_singleton.mp released, Command.isSteady]
          simpa using nonempty
      · exact commands command fetched
    · exact listingOn_advance free
  · refine ⟨?_, [], by simp, ?_⟩
    · refine ⟨?_, ?_, focused_advance f⟩
      · rw [advance_of_put put]
        exact steady.source
      · rw [advance_of_put put]
        exact steady.brace
    · rw [advance_of_put put]
      rfl

/-- Steady commands keep the property of listings. -/
def KeptBySteady (K : Listing → Prop) : Prop :=
  ∀ (listing : Listing) (command : Command), K listing → command.isSteady = true →
    K (listing.apply command)

theorem KeptBySteady.run {K : Listing → Prop} (kept : KeptBySteady K) {listing : Listing}
    (holds : K listing) {script : List Command}
    (steady : ∀ command ∈ script, command.isSteady = true) : K (listing.run script) := by
  induction script generalizing listing with
  | nil => exact holds
  | cons command script ih =>
    exact ih (kept _ _ holds (steady command List.mem_cons_self)) fun later member =>
      steady later (List.mem_cons_of_mem _ member)

/-- Inside declarations and statements only steady commands are given. -/
theorem bodyInvariant_listingOn {K : Listing → Prop} (kept : KeptBySteady K) (layout : Layout)
    (name : List Char) :
    BodyInvariant fun f => f.Steady ∧ K (f.listingOn layout name) where
  performInner {f command} holds inner := by
    have steady : command.isSteady = true := by
      cases command with
      | endLine forced => cases forced <;> first | rfl | contradiction
      | _ => first | rfl | contradiction
    refine ⟨holds.1.perform command, ?_⟩
    rw [listingOn_perform]
    exact kept _ _ holds.2 steady
  reportMissing {f} required holds := by
    refine ⟨⟨holds.1.source, holds.1.brace, holds.1.focus⟩, ?_⟩
    rw [listingOn_reportMissing]
    exact kept _ _ holds.2 rfl
  markDeclaration holds := ⟨⟨holds.1.source, holds.1.brace, holds.1.focus⟩, holds.2⟩
  markExpression _ holds := ⟨⟨holds.1.source, holds.1.brace, holds.1.focus⟩, holds.2⟩
  joinLeft holds _ := ⟨⟨holds.1.source, holds.1.brace, holds.1.focus⟩, holds.2⟩
  advance {f} holds := by
    obtain ⟨steady, script, commands, same⟩ := @Steady.advance layout name f holds.1
    refine ⟨steady, ?_⟩
    rw [same]
    exact kept.run holds.2 commands
  lookAgain {f} holds name := by
    obtain ⟨steady, script, commands, same⟩ := @Steady.advance layout _ f holds.1
    have focus := focused_lookAgain name
    rw [putBack_advance] at focus ⊢
    refine ⟨⟨steady.source, steady.brace, focus⟩, ?_⟩
    exact (congrArg K same).mpr (kept.run holds.2 commands)
  countOpened holds := ⟨⟨holds.1.source, holds.1.brace, holds.1.focus⟩, holds.2⟩
  countClosed holds := ⟨⟨holds.1.source, holds.1.brace, holds.1.focus⟩, holds.2⟩

/-! ## The body of a function -/

theorem keptBySteady_filled : KeptBySteady Listing.Filled :=
  fun _ _ filled steady =>
    Listing.keptByLines_filled.apply filled (Command.staysOnPage_of_isSteady steady)

theorem keptBySteady_tidy : KeptBySteady Listing.Tidy :=
  fun _ _ tidy steady =>
    Listing.keptByLines_tidy.apply tidy (Command.staysOnPage_of_isSteady steady)

theorem keptBySteady_settling : KeptBySteady Listing.Settling :=
  fun _ _ settling steady => settling.apply steady

/-- The opening brace of a block goes to the listing, or the report that it is missing does. -/
theorem settling_expect_leftBrace (steady : f.Steady) (tidy : (f.listingOn layout name).Tidy) :
    (f.expect .leftBrace).Steady ∧ ((f.expect .leftBrace).listingOn layout name).Settling := by
  unfold expect
  split
  · rename_i brace
    obtain ⟨free, same⟩ := steady.focus.free (by rw [brace]; rfl)
    rw [kind, same] at brace
    have nonempty := steady.brace brace
    obtain ⟨commands, _, _⟩ := steady.source.fetch
    refine ⟨(@Steady.advance layout name f steady).1, ?_⟩
    rw [listingOn_advance free, Cursor.release_of_ne_nil nonempty, Listing.run_append]
    exact keptBySteady_settling.run (tidy.append nonempty _) commands
  · refine ⟨⟨steady.source, steady.brace, steady.focus⟩, ?_⟩
    rw [listingOn_reportMissing]
    exact Or.inl (tidy.writeLine rfl _ _)

/-- After a block every page has a line. -/
theorem filled_compoundStatement (steady : f.Steady) (tidy : (f.listingOn layout name).Tidy) :
    f.compoundStatement.Steady ∧ (f.compoundStatement.listingOn layout name).Filled := by
  obtain ⟨opened, settling⟩ := settling_expect_leftBrace steady tidy
  have ended : ((f.expect .leftBrace).endLine.listingOn layout name).Filled := by
    rw [endLine, listingOn_perform]
    exact settling.endLine
  have sim := (bodyInvariant_listingOn keptBySteady_filled layout name).simulation
  have first : (f.expect .leftBrace).endLine.Steady := opened.perform (.endLine false)
  have inside := sim.blockDeclarations (sim.indent ⟨rfl, first, ended⟩)
  have body := sim.statementsVia (sim.keepsBelow _) inside (Nat.lt_succ_self _)
  exact (sim.endLine (sim.expect .rightBrace (sim.unindent (sim.endLine body)))).2

/-- What stands between the header of a function and its body. -/
theorem functionBody_eq (f : Formatter Feed) :
    f.functionBody =
      ({ f with functions := f.functions + 1 }.perform
        (.endLine true)).indent.declarations.unindent.compoundStatement.endLine.perform .endPage :=
  rfl

/-- After the body of a function every page has a line. -/
theorem filled_functionBody (steady : f.Steady) (filled : (f.listingOn layout name).Filled) :
    f.functionBody.Steady ∧ (f.functionBody.listingOn layout name).Filled := by
  rw [functionBody_eq]
  have forced :
      (({ f with functions := f.functions + 1 }.perform (.endLine true)).listingOn
        layout name).Tidy := by
    rw [listingOn_perform]
    exact Listing.Tidy.force (Or.inl filled)
  have header : ({ f with functions := f.functions + 1 }.perform (.endLine true)).Steady :=
    ⟨steady.source, steady.brace, steady.focus⟩
  generalize { f with functions := f.functions + 1 }.perform (.endLine true) = start at *
  have sim := (bodyInvariant_listingOn keptBySteady_tidy layout name).simulation
  have parameters := (sim.unindent (sim.declarations (sim.indent ⟨rfl, header, forced⟩))).2
  obtain ⟨after, written⟩ := filled_compoundStatement parameters.1 parameters.2
  have finish := (bodyInvariant_listingOn keptBySteady_filled layout name).simulation
  have ended := (finish.endLine ⟨rfl, after, written⟩).2
  refine ⟨ended.1.perform .endPage, ?_⟩
  rw [listingOn_perform]
  exact ended.2.endPage

theorem filled_fileItem (steady : f.Steady) (filled : (f.listingOn layout name).Filled) :
    f.fileItem.Steady ∧ (f.fileItem.listingOn layout name).Filled := by
  have sim := (bodyInvariant_listingOn keptBySteady_filled layout name).simulation
  obtain ⟨-, -, read⟩ := sim.externalDeclaration ⟨rfl, steady, filled⟩
  unfold fileItem
  generalize f.externalDeclaration = outcome at read
  obtain ⟨level, after⟩ := outcome
  cases level with
  | header => exact filled_functionBody read.1 read.2
  | declaration => exact read

/-- At the end of a walk every page has a line. -/
theorem filled_file (steady : f.Steady) (filled : (f.listingOn layout name).Filled) :
    (f.file.listingOn layout name).Filled := by
  have sim := (bodyInvariant_listingOn keptBySteady_filled layout name).simulation
  have first := (sim.advance ⟨rfl, steady, filled⟩).2
  have progress (g : Formatter Feed) (goes : decide (g.kind ≠ .endOfFile) = true) :
      g.fileItem.remaining < g.remaining :=
    fileItem_lt (by simpa using goes)
  have items :=
    @repeatWhile_keeps (fun g => g.Steady ∧ (g.listingOn layout name).Filled) _ _ progress
      (fun g holds => filled_fileItem holds.1 holds.2) _ _ first (Nat.lt_succ_self _)
  exact (sim.endLine ⟨rfl, items⟩).2.2

/-- In the listing of items that a text can have, every page has a line. -/
theorem filled_ofItems {items : List Item} (sound : ∀ item ∈ items, item.Sound)
    (positive : 1 ≤ layout.linesPerPage) (name : List Char) :
    ((ofItems items).listingOn layout name).Filled := by
  have start : (ofTokens (Feed.ofItems items) false []).Steady :=
    ⟨Feed.steady_ofItems sound, fun brace => Category.noConfusion brace, Or.inl ⟨rfl, rfl⟩⟩
  exact filled_file start (Listing.filled_blank positive name)

end Formatter

end CListing
