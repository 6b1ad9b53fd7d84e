import CListing.Proofs.Formatter.Blocks
import CListing.Proofs.Formatter.Headers
import CListing.Proofs.Reformat.Balance

/-!
# Functions on fresh pages

A page is begun before the body of a function, when its header has been read. The header is the
first line on that page as far as it is still pending. A header that takes several rows, or has a
line of a directive or a brace in it, was written in part before that, and is not on a page of its
own. The items of a file leave nothing pending, so nothing else gets to the page either.
-/

namespace CListing

open Round Text Formatter.Call

namespace Listing

/-- The ink of the lines of code, and of the pending line after them. -/
def codeInk (listing : Listing) : List Char :=
  listing.inkOf (· = .code)

theorem codeInk_endLine (listing : Listing) (forced : Bool) :
    (listing.endLine forced).codeInk = listing.codeInk :=
  inkOf_endLine listing (fun _ => rfl) rfl forced

theorem codeInk_writeLine (listing : Listing) {origin : Line.Origin} (other : origin ≠ .code)
    (text : List Char) (indented : Bool) :
    (listing.writeLine origin text indented).codeInk = listing.codeInk :=
  inkOf_writeLine_of_not listing (fun _ => rfl) (by simpa using other) text indented

/-- Only lexemes add ink to the lines of code. -/
theorem codeInk_apply (listing : Listing) (command : Command) :
    (listing.apply command).codeInk = listing.codeInk ++ ink (appended [command]).flatten := by
  cases command with
  | append lexeme spacing =>
    have step : (listing.append lexeme spacing).codeInk = listing.codeInk ++ ink lexeme :=
      inkOf_append listing (fun _ => rfl) rfl lexeme spacing
    simpa [apply, appended] using step
  | endLine forced => simpa [apply, appended] using codeInk_endLine listing forced
  | skipLine =>
    rw [apply, codeInk_writeLine _ (by decide), codeInk_endLine]
    simp [appended]
  | newPage =>
    rw [apply, codeInk, inkOf_newPage listing fun _ => rfl]
    simp [appended, codeInk]
  | directive text =>
    rw [apply, codeInk_writeLine _ (by decide), codeInk_endLine]
    simp [appended]
  | report text => simpa [apply, appended] using codeInk_writeLine listing (by decide) text false
  | write text indented =>
    simpa [apply, appended] using codeInk_writeLine listing (by decide) text indented
  | indent => simp [apply, appended, codeInk, inkOf]
  | unindent => simp [apply, appended, codeInk, inkOf]
  | endPage => simp [apply, appended, codeInk, inkOf]

theorem codeInk_run (listing : Listing) (script : List Command) :
    (listing.run script).codeInk = listing.codeInk ++ ink (appended script).flatten := by
  induction script generalizing listing with
  | nil => simp [appended]
  | cons command script ih =>
    have split : appended (command :: script) = appended [command] ++ appended script :=
      appended_append [command] script
    rw [run_cons, ih, codeInk_apply, split, List.flatten_append, ink_append, List.append_assoc]

/-- The lines of code that were written hold the ink of the lexemes that were said. -/
theorem ink_written {listing : Listing} (empty : listing.pending = []) {said : List Command}
    {written : List Line}
    (lines : ((listing.run said).endLine true).lines.toList = listing.lines.toList ++ written) :
    ink ((written.filter (·.isCode)).flatMap (·.text)) = ink (appended said).flatten := by
  have whole := codeInk_run listing said
  rw [← codeInk_endLine _ true] at whole
  simp only [codeInk, inkOf, lines, empty, pending_endLine, List.filter_append,
    List.flatMap_append, ink_append, ink_nil, List.append_nil] at whole
  exact List.append_cancel_left whole

end Listing

namespace Formatter

variable {layout : Layout} {name : List Char} {f read : Formatter Feed}

/-! ## Between the items of a file -/

/-- Between items nothing is pending, every page has a line, and no token was looked past. -/
structure AtItem (layout : Layout) (name : List Char) (f : Formatter Feed) : Prop where
  fed : f.Fed
  free : f.cursor.lookahead? = none
  empty : (f.listingOn layout name).pending = []
  filled : (f.listingOn layout name).Filled

/-- Behind a token that is required, or at the end, no token was looked past. -/
theorem free_expect (focus : f.Focused) {required : Category}
    (stops : f.kind = required ∨ f.kind = .endOfFile) :
    (f.expect required).cursor.lookahead? = none := by
  unfold expect
  split
  · exact lookahead?_advance f
  · rename_i missing
    have last := stops.resolve_left missing
    exact (focus.free (by rw [last]; rfl)).1

/-- A declaration ends at its semicolon or at the end of the source. -/
theorem stops_externalDeclaration (focus : f.Focused)
    (declaration : f.externalDeclaration = (.declaration, read)) :
    ∃ last : Formatter Feed, read = last.endDeclaration ∧ last.Focused ∧
      (last.kind = .semicolon ∨ last.kind = .endOfFile) := by
  obtain ⟨⟨braces, last⟩, reaches, leaves⟩ :=
    (consuming_externalLoop.finishes (0, f)).exists_reaches
  unfold externalDeclaration at declaration
  split at declaration
  · simp at declaration
  rename_i other found
  obtain ⟨_, rfl⟩ := Prod.mk.inj declaration
  rw [externalLoop, found] at leaves
  have there : last.Focused := invariant_focused.toBodyInvariant.reaches reaches focus
  refine ⟨other, rfl, ?_⟩
  have turn := externalTurn (braces, last)
  rw [leaves] at turn
  cases turn with
  | stop stops => exact ⟨there, stops.imp_left And.right⟩

theorem Focused.of_body (focus : f.Focused) : (blockEnd f).endLine.unindent.Focused := by
  have sim := invariant_focused.toBodyInvariant.simulation
  have opened := sim.indent (sim.endLine (sim.expect .leftBrace ⟨rfl, focus⟩))
  have body := sim.statementsVia (sim.keepsBelow _) (sim.blockDeclarations opened)
    (Nat.lt_succ_self _)
  exact (sim.unindent (sim.endLine body)).2

/-- A block ends with its brace or at the end of the source. -/
theorem free_compoundStatement (focus : f.Focused) :
    f.compoundStatement.cursor.lookahead? = none := by
  have stops := atBlockEnd_blockEnd f
  rw [atBlockEnd, Bool.or_eq_true, decide_eq_true_iff, decide_eq_true_iff] at stops
  have ended (g : Formatter Feed) : g.endLine.cursor = g.cursor := rfl
  rw [compoundStatement_eq, ended]
  exact free_expect focus.of_body stops

theorem free_functionBody (focus : read.Focused) :
    read.functionBody.cursor.lookahead? = none := by
  have sim := invariant_focused.simulation
  have counted : Focused ({ read with functions := read.functions + 1 }.perform (.endLine true)) :=
    focus
  have parameters := (sim.unindent (sim.declarations (sim.indent ⟨rfl, counted⟩))).2
  have ended (g : Formatter Feed) : (g.endLine.perform .endPage).cursor = g.cursor := rfl
  rw [functionBody_eq, ended]
  exact free_compoundStatement parameters

theorem pending_endLine : (f.endLine.listingOn layout name).pending = [] := by
  rw [endLine, listingOn_perform]
  exact Listing.pending_endLine _ false

theorem pending_functionBody : (read.functionBody.listingOn layout name).pending = [] := by
  have ended (g : Formatter Feed) :
      ((g.endLine.perform .endPage).listingOn layout name).pending = [] := by
    rw [listingOn_perform]
    exact pending_endLine
  rw [functionBody_eq]
  exact ended _

/-- An item leaves nothing behind. -/
theorem AtItem.fileItem (atItem : f.AtItem layout name) : f.fileItem.AtItem layout name := by
  have fed := (invariant_fed.simulation.fileItem ⟨rfl, atItem.fed⟩).2
  have filled := (filled_fileItem atItem.fed.steady atItem.filled).2
  have kept := (invariant_fed.simulation.externalDeclaration ⟨rfl, atItem.fed⟩).2.2
  refine ⟨fed, ?_, ?_, filled⟩
  all_goals
    unfold Formatter.fileItem
    split
  · rename_i read header
    rw [header] at kept
    exact free_functionBody kept.focus
  · rename_i read declaration
    obtain ⟨last, rfl, focus, stops⟩ := stops_externalDeclaration atItem.fed.focus declaration
    exact free_expect focus stops
  · exact pending_functionBody
  · rename_i read declaration
    obtain ⟨last, rfl, _⟩ := stops_externalDeclaration atItem.fed.focus declaration
    exact pending_endLine

/-- A file begins in front of its first item. -/
theorem atItem_advance {reader : Reader} {feed : Feed} (found : Feed.ofReader? reader = some feed)
    (positive : 1 ≤ layout.linesPerPage) (traced : Bool) (notes : List Note) :
    (ofTokens feed traced notes).advance.AtItem layout name := by
  have inked : feed.Inked := Feed.inked_ofReader found
  have commands : feed.AllCommands (·.endsLine) :=
    Feed.allCommands_ofReader rfl (fun _ => rfl) found
  have brought := (commands.fetch rfl).1
  have listing : (ofTokens feed traced notes).advance.listingOn layout name =
      (Listing.blank layout name).run feed.fetch.1.commands :=
    listingOn_advance rfl
  refine ⟨fed_advance (regular_ofTokens found traced notes) rfl inked commands,
    lookahead?_advance _, ?_, ?_⟩
  · rw [listing]
    exact Listing.pending_run_of_endsLine rfl brought
  · rw [listing]
    exact keptBySteady_filled.run (Listing.filled_blank positive name) fun command member =>
      Command.isSteady_of_endsLine (brought command member)

theorem AtItem.reaches {start : Formatter Feed} (atItem : start.AtItem layout name)
    (reaches : Reaches fileRound start f) : f.AtItem layout name := by
  induction reaches with
  | here => exact atItem
  | more goes _ ih =>
    simp only [fileRound, whileRound] at goes
    split at goes
    · obtain rfl := Round.more.inj goes
      exact ih atItem.fileItem
    · contradiction

/-! ## Behind a header -/

/-- The page that is begun behind the header stays, whatever the body of the function is. -/
theorem isPrefix_functionBody (steady : read.Steady) :
    ((read.listingOn layout name).endLine true).lines.toList <+:
      (read.functionBody.listingOn layout name).lines.toList := by
  have kept : KeptBySteady fun listing =>
      ((read.listingOn layout name).endLine true).lines.toList <+: listing.lines.toList :=
    fun listing command before _ => before.trans (Listing.isPrefix_run listing [command])
  have sim := (bodyInvariant_listingOn kept layout name).simulation
  have forced : (({ read with functions := read.functions + 1 }.perform
      (.endLine true)).listingOn layout name) = (read.listingOn layout name).endLine true :=
    listingOn_perform (.endLine true)
  have start : ({ read with functions := read.functions + 1 }.perform (.endLine true)).Steady :=
    ⟨steady.source, steady.brace, steady.focus⟩
  have parameters := sim.unindent (sim.declarations (sim.indent ⟨rfl, start, by rw [forced]⟩))
  have body := (sim.endLine (sim.compoundStatement parameters)).2.2
  rw [functionBody_eq, listingOn_perform]
  exact body

/-- What is written when an item was read stays. -/
theorem isPrefix_file {start : Formatter Feed} (fed : f.Fed) (notEnd : f.kind ≠ .endOfFile)
    (reaches : Reaches fileRound start.advance f) (layout : Layout) (name : List Char) :
    (f.fileItem.listingOn layout name).lines.toList <+:
      (start.file.listingOn layout name).lines.toList := by
  have goes : fileRound f = .more f.fileItem := by
    simp [fileRound, whileRound, notEnd]
  have loop : fileLoop start.advance = fileLoop f.fileItem :=
    (consuming_fileLoop.eq_of_reaches reaches).trans (consuming_fileLoop.eq_of_more goes)
  have regular := (accounts_fileItem fed.regular).regular
  obtain ⟨more, split, _⟩ := (accounts_fileLoop regular).script
  rw [file_eq, endLine, listingOn_perform, loop, listingOn_of_script split]
  exact (Listing.isPrefix_run _ more).trans (Listing.isPrefix_run _ [.endLine false])

/-- A header is not read at the end of a source. -/
theorem kind_ne_of_header (header : f.externalDeclaration = (.header, read)) :
    f.kind ≠ .endOfFile := by
  intro ends
  obtain ⟨last, reaches, closing, _⟩ := exists_reaches_of_header header
  have leaves : externalRound (0, f) = .done (.declaration, f) := by
    simp [externalRound, ends]
  obtain ⟨_, rfl⟩ := Prod.mk.inj (reaches.of_done leaves)
  rw [ends] at closing
  contradiction

end Formatter

open Formatter

/-- The listing is that of the walk along the feed, under an acceptable layout. -/
theorem Formatted.listing_of_ok {settings : Settings} {name : List Char} {source : Source}
    {formatted : Formatted} {feed : Feed} (ok : reformat settings name source = .ok formatted)
    (found : Feed.ofReader? (Reader.ofSource source).1 = some feed) :
    settings.layout.Acceptable ∧ formatted.listing =
      (ofTokens feed settings.traced (Reader.ofSource source).2).file.listingOn
        settings.layout name := by
  obtain ⟨acceptable, other, otherFound, rfl⟩ := reformat_eq_ok_iff.mp ok
  obtain rfl : feed = other := Option.some.inj (found.symm.trans otherFound)
  exact ⟨acceptable, rfl⟩

/-- Where the header of a function is written. The lines that hold its tokens, from the first one of
the declaration to the closing parenthesis, are on one page and begin right behind the heading of
that page exactly if nothing but the tokens was said and they stand on one row of the line, or if
the lines were written before already, with nothing pending, and are on a fresh page there. -/
theorem header_onFreshPage_iff {settings : Settings} {name : List Char} {source : Source}
    {formatted : Formatted} {feed : Feed} {f read : Formatter Feed}
    (ok : reformat settings name source = .ok formatted)
    (found : Feed.ofReader? (Reader.ofSource source).1 = some feed)
    (reaches : Reaches fileRound
      (ofTokens feed settings.traced (Reader.ofSource source).2).advance f)
    (header : f.externalDeclaration = (.header, read)) :
    let listing := f.listingOn settings.layout name
    ∃ tokens said shown written later,
      f.ahead = tokens ++ read.ahead ∧
      (∃ closing ∈ tokens.getLast?, closing.category = .rightParen) ∧
      read.script.toList = f.script.toList ++ said ∧
      appended said = tokens.map (·.lexeme) ∧
      (listing.run said).lines.toList = listing.lines.toList ++ shown ∧
      formatted.listing.lines.toList = listing.lines.toList ++ written ++ later ∧
      ink ((written.filter (·.isCode)).flatMap (·.text)) = ink (tokens.flatMap (·.lexeme)) ∧
      (OnFreshPage written ↔ listing.SaidOnOneRow said ∨
        (listing.run said).pending = [] ∧ OnFreshPage shown) := by
  intro listing
  obtain ⟨acceptable, walked⟩ := Formatted.listing_of_ok ok found
  have atItem : f.AtItem settings.layout name :=
    (atItem_advance found acceptable.linesPerPage_pos settings.traced _).reaches reaches
  obtain ⟨tokens, said, appends, lexemes, closing, either⟩ :=
    exists_appends_header atItem.fed atItem.free header settings.layout name
  have readFed : read.Fed := by
    have kept := (invariant_fed.simulation.externalDeclaration ⟨rfl, atItem.fed⟩).2.2
    rwa [header] at kept
  have readFilled : (read.listingOn settings.layout name).Filled := by
    have sim := (bodyInvariant_listingOn keptBySteady_filled settings.layout name).simulation
    have kept := (sim.externalDeclaration ⟨rfl, atItem.fed.steady, atItem.filled⟩).2.2.2
    rwa [header] at kept
  have readListing : read.listingOn settings.layout name = listing.run said :=
    listingOn_of_script appends.script
  have item : f.fileItem = read.functionBody := by
    rw [fileItem, header]
  rw [readListing] at either readFilled
  obtain ⟨shown, lines⟩ := Listing.isPrefix_run listing said
  obtain ⟨written, forced, fresh⟩ :=
    Listing.exists_endLine_forced readFilled atItem.empty lines.symm either
  have stays := isPrefix_file atItem.fed (kind_ne_of_header header) reaches settings.layout name
  rw [item, ← walked] at stays
  obtain ⟨later, whole⟩ := (isPrefix_functionBody readFed.steady).trans stays
  refine ⟨tokens, said, shown, written, later, appends.ahead, closing, appends.script, lexemes,
    lines.symm, ?_, ?_, fresh⟩
  · rw [← whole, readListing, forced]
  · rw [Listing.ink_written atItem.empty forced, lexemes, List.flatMap_def]

/-- The header of a small function is on one row. -/
theorem header_onFreshPage_iff_oneRow :
    let source := Source.ofText "int f(a)\x7b\x7d".toList
    let reader := Reader.ofSource source
    ∃ formatted feed read,
      reformat {} "f.c".toList source = .ok formatted ∧
      Feed.ofReader? reader.1 = some feed ∧
      (ofTokens feed false reader.2).advance.externalDeclaration = (.header, read) ∧
      ∃ written later, formatted.listing.lines.toList = written ++ later ∧
        ink ((written.filter (·.isCode)).flatMap (·.text)) = "intf(a)".toList ∧
        OnFreshPage written := by
  intro source reader
  let marks : List Mark :=
    [⟨"int".toList, .free⟩, ⟨['f'], .free⟩, ⟨['('], .both⟩, ⟨['a'], .free⟩, ⟨[')'], .left⟩]
  have listed : (reformat {} "f.c".toList source).toOption.any (fun _ => true) = true := by
    decide +kernel
  have walked : (Feed.ofReader? reader.1).any (fun feed =>
      let start := (ofTokens feed false reader.2).advance
      start.externalDeclaration.1 = .header && start.script.toList = [] &&
        start.externalDeclaration.2.script.toList = marks.map Mark.command) = true := by
    decide +kernel
  obtain ⟨formatted, ok, _⟩ := exists_ok_of_any listed
  obtain ⟨feed, found, walk⟩ := (Option.any_eq_true _ _).mp walked
  simp only [Bool.and_eq_true, decide_eq_true_eq] at walk
  obtain ⟨⟨level, before⟩, script⟩ := walk
  have header : (ofTokens feed false reader.2).advance.externalDeclaration =
      (.header, (ofTokens feed false reader.2).advance.externalDeclaration.2) := Prod.ext level rfl
  obtain ⟨tokens, said, shown, written, later, _, _, added, lexemes, _, lines, inked, fresh⟩ :=
    header_onFreshPage_iff ok found (.here _) header
  have start : (ofTokens feed false reader.2).advance.listingOn {} "f.c".toList =
      Listing.blank {} "f.c".toList := by
    rw [listingOn, before]
    rfl
  rw [before, List.nil_append] at added
  obtain rfl : said = marks.map Mark.command := added.symm.trans script
  rw [start] at lines fresh
  refine ⟨formatted, feed, _, ok, found, header, written, later, lines, ?_, fresh.mpr (Or.inl ?_)⟩
  · rw [inked, List.flatMap_def, ← lexemes]
    decide
  · exact ⟨marks, by decide, rfl, Or.inr ⟨by decide, by decide⟩⟩

/-- A header that is wrapped begins on the page before. -/
theorem header_not_onFreshPage :
    let settings : Settings := { layout := { lineWidth := 10 } }
    let source := Source.ofText "int f(int a, int b)\x7b\x7d".toList
    let reader := Reader.ofSource source
    ∃ formatted feed, reformat settings "f.c".toList source = .ok formatted ∧
      Feed.ofReader? reader.1 = some feed ∧
      let start := (ofTokens feed settings.traced reader.2).advance
      ∃ tokens read written later,
        start.externalDeclaration = (.header, read) ∧
        start.ahead = tokens ++ read.ahead ∧
        formatted.listing.lines.toList = written ++ later ∧
        ink ((written.filter (·.isCode)).flatMap (·.text)) = ink (tokens.flatMap (·.lexeme)) ∧
        (written.countP (·.isCode) : Int) ≤ settings.layout.linesPerPage ∧
        ¬ OnFreshPage written := by
  intro settings source reader
  have run : (reformat settings "f.c".toList source).toOption.any (fun formatted =>
      (Feed.ofReader? reader.1).any fun feed =>
        let start := (ofTokens feed settings.traced reader.2).advance
        let tokens := start.ahead.take 9
        let read := start.externalDeclaration.2
        let written := formatted.listing.lines.toList.take 4
        start.externalDeclaration.1 = .header && start.ahead = tokens ++ read.ahead &&
          ink ((written.filter (·.isCode)).flatMap (·.text)) = ink (tokens.flatMap (·.lexeme)) &&
          (written.countP (·.isCode) : Int) ≤ settings.layout.linesPerPage &&
          decide (¬ OnFreshPage written)) = true := by
    decide +kernel
  obtain ⟨formatted, ok, walked⟩ := exists_ok_of_any run
  obtain ⟨feed, found, walk⟩ := (Option.any_eq_true _ _).mp walked
  simp only [Bool.and_eq_true, decide_eq_true_eq] at walk
  obtain ⟨⟨⟨⟨level, ahead⟩, inked⟩, short⟩, apart⟩ := walk
  exact ⟨formatted, feed, ok, found, _, _, _, formatted.listing.lines.toList.drop 4,
    Prod.ext level rfl, ahead, (List.take_append_drop 4 _).symm, inked, short,
    apart⟩

end CListing
