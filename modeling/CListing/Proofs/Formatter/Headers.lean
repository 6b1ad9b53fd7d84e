import CListing.Proofs.Formatter.Braces
import CListing.Proofs.Formatter.Levels
import CListing.Proofs.Formatter.Paging
import CListing.Proofs.Listing.FreshPage
import CListing.Proofs.Reader.FeedTokens
import CListing.Proofs.Reader.Requests

/-!
# Headers of functions

A header without braces is read lexeme by lexeme, so it is still pending when its body is reached,
as far as it fits on a line and no directive stands inside. Otherwise lines of it were written. A
header with braces has a line for each of them.
-/

namespace CListing

theorem appended_of_endsLine {script : List Command}
    (ends : ∀ command ∈ script, command.endsLine = true) : appended script = [] := by
  refine List.filterMap_eq_nil_iff.mpr fun command member => ?_
  have here := ends command member
  cases command <;> first | rfl | contradiction

namespace Formatter

open Round

/-! ## What is still to come -/

/-- What is to come are tokens with characters, which do not end in a blank before another one, and
lines of directives between them. The token held is such a one. -/
structure Fed (f : Formatter Feed) : Prop where
  regular : f.Regular
  focus : f.Focused
  source : f.cursor.source.Inked
  commands : f.cursor.source.AllCommands (·.endsLine)
  filled : f.cursor.current.lexeme = [] ↔ f.cursor.current.category = .endOfFile
  ends : f.cursor.source.ahead ≠ [] → f.cursor.current.lexeme.getLast?.any Unicode.isBlank = false

variable {f g start : Formatter Feed}

theorem Fed.steady (fed : f.Fed) : f.Steady := by
  have steady (command : Command) (ends : command.endsLine = true) : command.isSteady = true :=
    Command.isSteady_of_endsLine ends
  refine ⟨⟨?_, ?_, ?_⟩, ?_, fed.focus⟩
  · exact fun fetch member command inside => steady _ (fed.commands.1 fetch member command inside)
  · exact fun fetch member _ => fed.source.nonempty fetch.token (List.mem_map_of_mem member)
  · exact fun command member => steady _ (fed.commands.2 command member)
  · intro brace empty
    rw [fed.filled.mp empty] at brace
    contradiction

/-- What is fetched is a token of the feed, whatever was looked at before. -/
theorem fed_advance (regular : f.Regular) (free : f.cursor.lookahead? = none)
    (source : f.cursor.source.Inked) (commands : f.cursor.source.AllCommands (·.endsLine)) :
    f.advance.Fed := by
  have next := regular.advance
  have focus := focused_advance f
  obtain ⟨others, nonempty, ends⟩ := source.fetch
  have filled : f.cursor.source.fetch.1.token.lexeme = [] ↔
      f.cursor.source.fetch.1.token.category = .endOfFile := by
    refine ⟨fun empty => by_contra fun notEnd => nonempty notEnd empty, fun last => ?_⟩
    rcases f.cursor.source.cases_ahead with ⟨empty, _⟩ | ⟨first, rest, split⟩
    · rw [Feed.fetch_of_ahead_eq_nil empty]
      rfl
    · have endsLast := regular.endsLast
      rw [split] at last endsLast
      exact absurd last (endsLast first List.mem_cons_self)
  rw [advance_of_free free] at next focus ⊢
  exact ⟨next, focus, others, (commands.fetch rfl).2, filled, ends⟩

theorem Fed.advance (fed : f.Fed) : f.advance.Fed := by
  rcases fed.focus with ⟨free, _⟩ | ⟨put, _⟩
  · exact fed_advance fed.regular free fed.source fed.commands
  · have regular := fed.regular.advance
    have focus := focused_advance f
    rw [advance_of_put put] at regular focus ⊢
    exact ⟨regular, focus, fed.source, fed.commands, fed.filled, fed.ends⟩

theorem invariant_fed : Invariant Fed where
  perform fed silent := ⟨invariant_regular.perform fed.regular silent, fed.focus, fed.source,
    fed.commands, fed.filled, fed.ends⟩
  reportMissing required fed := ⟨invariant_regular.reportMissing required fed.regular, fed.focus,
    fed.source, fed.commands, fed.filled, fed.ends⟩
  markDeclaration fed := ⟨invariant_regular.markDeclaration fed.regular, fed.focus, fed.source,
    fed.commands, fed.filled, fed.ends⟩
  markExpression previous fed := ⟨invariant_regular.markExpression previous fed.regular, fed.focus,
    fed.source, fed.commands, fed.filled, fed.ends⟩
  joinLeft fed joins := ⟨invariant_regular.joinLeft fed.regular joins, fed.focus, fed.source,
    fed.commands, fed.filled, fed.ends⟩
  advance fed := fed.advance
  lookAgain {f} fed name := by
    have next := fed.advance
    have regular := invariant_regular.lookAgain fed.regular name
    have focus := focused_lookAgain name
    rw [putBack_advance] at regular focus ⊢
    exact ⟨regular, focus, next.source, next.commands, next.filled, next.ends⟩
  countFunction fed := ⟨invariant_regular.countFunction fed.regular, fed.focus, fed.source,
    fed.commands, fed.filled, fed.ends⟩
  countOpened fed := ⟨invariant_regular.countOpened fed.regular, fed.focus, fed.source,
    fed.commands, fed.filled, fed.ends⟩
  countClosed fed := ⟨invariant_regular.countClosed fed.regular, fed.focus, fed.source,
    fed.commands, fed.filled, fed.ends⟩

/-- Before the end, the token that is looked at has characters. -/
theorem Fed.lexeme_ne_nil (fed : f.Fed) (free : f.cursor.lookahead? = none)
    (notEnd : f.kind ≠ .endOfFile) : f.cursor.current.lexeme ≠ [] := by
  intro empty
  rw [kind, fed.focus.token_of_free free, fed.filled.mp empty] at notEnd
  contradiction

/-! ## What is said on the way -/

/-- On the way from the first state to the other the tokens are taken, and the script grows by what
is said. It adds the lexemes of the tokens. A name that was looked past was added, too. -/
structure Appends (f : Formatter Feed) (tokens : List Token) (said : List Command)
    (g : Formatter Feed) : Prop where
  ahead : f.ahead = tokens ++ g.ahead
  script : g.script.toList = f.script.toList ++ said
  appended : appended said =
    tokens.map (·.lexeme) ++ (g.cursor.lookahead?.map fun _ => g.token.lexeme).toList

namespace Appends

variable {tokens : List Token} {said : List Command}

theorem refl (free : f.cursor.lookahead? = none) : Appends f [] [] f where
  ahead := rfl
  script := (List.append_nil _).symm
  appended := by rw [free]; rfl

/-- Nothing is added. -/
theorem perform (appends : Appends f tokens said g) {command : Command}
    (silent : CListing.appended [command] = []) :
    Appends f tokens (said ++ [command]) (g.perform command) where
  ahead := appends.ahead
  script := by
    rw [Formatter.perform, Array.toList_push, appends.script, List.append_assoc]
  appended := by
    rw [appended_append, silent, List.append_nil]
    exact appends.appended

/-- The token is taken and its lexeme added. -/
theorem advance (appends : Appends f tokens said g) (fed : g.Fed) (notEnd : g.kind ≠ .endOfFile) :
    ∃ more, Appends f (tokens ++ [g.token]) (said ++ more) g.advance := by
  have ahead : f.ahead = tokens ++ [g.token] ++ g.advance.ahead := by
    rw [appends.ahead, ahead_advance notEnd, List.append_assoc]
    rfl
  rcases fed.focus with ⟨free, same⟩ | ⟨put, _⟩
  · have release := Cursor.release_of_ne_nil (fed.lexeme_ne_nil free notEnd)
    have brought := appended_of_endsLine (fed.commands.fetch rfl).1
    refine ⟨g.cursor.release ++ g.cursor.source.fetch.1.commands, ahead, ?_, ?_⟩
    · rw [advance_of_free free]
      simp [appends.script]
    · have before := appends.appended
      rw [free] at before
      rw [appended_append, appended_append, brought, before, release, same,
        lookahead?_advance g]
      simp [CListing.appended]
  · refine ⟨[], ahead, ?_, ?_⟩
    · rw [advance_of_put put, appends.script, List.append_nil]
    · have before := appends.appended
      rw [put] at before
      rw [List.append_nil, before, lookahead?_advance g]
      simp

/-- Behind the end there is nothing to take. -/
theorem advance_of_end (appends : Appends f tokens said g) (fed : g.Fed)
    (last : g.kind = .endOfFile) : ∃ more, Appends f tokens (said ++ more) g.advance := by
  obtain ⟨free, same⟩ := fed.focus.free (by rw [last]; rfl)
  have release : g.cursor.release = [] := by
    have empty := fed.filled.mpr (by rw [← last, kind, same])
    simp [Cursor.release, empty]
  have brought := appended_of_endsLine (fed.commands.fetch rfl).1
  have here : g.advance.kind = .endOfFile := by
    rw [advance_of_free free, kind, Feed.fetch_of_ahead_eq_nil (fed.regular.ends last).1]
    rfl
  refine ⟨g.cursor.source.fetch.1.commands, ?_, ?_, ?_⟩
  · rw [appends.ahead, ahead_of_end last, ahead_of_end here]
  · rw [advance_of_free free]
    simp [release, appends.script]
  · have before := appends.appended
    rw [free] at before
    rw [appended_append, brought, before, lookahead?_advance g]
    simp

/-- A name is looked past, and taken later. -/
theorem lookAgain (appends : Appends f tokens said g) (fed : g.Fed) (name : g.kind.isName = true) :
    ∃ more, Appends f tokens (said ++ more) (g.advance.putBack.lookAt g.token) := by
  have notEnd : g.kind ≠ .endOfFile := by
    intro last
    rw [last] at name
    contradiction
  obtain ⟨more, next⟩ := appends.advance fed notEnd
  refine ⟨more, ?_, ?_, ?_⟩
  · rw [ahead_lookAgain name]
    exact appends.ahead
  · rw [putBack_advance]
    exact next.script
  · have after := next.appended
    rw [lookahead?_advance g] at after
    rw [after, putBack_advance]
    simp [lookAt]

end Appends

/-- Every part of the walk inside declarations and statements takes tokens and adds their
lexemes. -/
theorem bodyInvariant_appends (start : Formatter Feed) :
    BodyInvariant fun g => g.Fed ∧ ∃ tokens said, Appends start tokens said g where
  performInner {g command} holds inner := by
    obtain ⟨fed, tokens, said, appends⟩ := holds
    refine ⟨invariant_fed.performInner fed inner, tokens, said ++ [command], appends.perform ?_⟩
    cases command <;> first | rfl | contradiction
  reportMissing {g} required holds := by
    obtain ⟨fed, tokens, said, appends⟩ := holds
    have next : Appends start tokens (said ++ [.report _])
        (g.perform (.report ("MISSING " ++ required.name).toList)) := appends.perform rfl
    exact ⟨invariant_fed.reportMissing required fed, tokens, _, next.ahead, next.script,
      next.appended⟩
  markDeclaration holds := by
    obtain ⟨fed, tokens, said, ahead, script, appended⟩ := holds
    exact ⟨invariant_fed.markDeclaration fed, tokens, said, ahead, script, appended⟩
  markExpression previous holds := by
    obtain ⟨fed, tokens, said, ahead, script, appended⟩ := holds
    exact ⟨invariant_fed.markExpression previous fed, tokens, said, ahead, script, appended⟩
  joinLeft holds joins := by
    obtain ⟨fed, tokens, said, ahead, script, appended⟩ := holds
    exact ⟨invariant_fed.joinLeft fed joins, tokens, said, ahead, script, appended⟩
  advance {g} holds := by
    obtain ⟨fed, tokens, said, appends⟩ := holds
    refine ⟨fed.advance, ?_⟩
    by_cases last : g.kind = .endOfFile
    · obtain ⟨more, next⟩ := appends.advance_of_end fed last
      exact ⟨tokens, said ++ more, next⟩
    · obtain ⟨more, next⟩ := appends.advance fed last
      exact ⟨tokens ++ [g.token], said ++ more, next⟩
  lookAgain {g} holds name := by
    obtain ⟨fed, tokens, said, appends⟩ := holds
    obtain ⟨more, next⟩ := appends.lookAgain fed name
    exact ⟨invariant_fed.lookAgain fed name, tokens, said ++ more, next⟩
  countOpened holds := by
    obtain ⟨fed, tokens, said, ahead, script, appended⟩ := holds
    exact ⟨invariant_fed.countOpened fed, tokens, said, ahead, script, appended⟩
  countClosed holds := by
    obtain ⟨fed, tokens, said, ahead, script, appended⟩ := holds
    exact ⟨invariant_fed.countClosed fed, tokens, said, ahead, script, appended⟩

/-- A round of the loop of a declaration at file level keeps what the parts of declarations keep. -/
theorem BodyInvariant.externalRound {P : Formatter Feed → Prop} (invariant : BodyInvariant P)
    {state next : Int × Formatter Feed} (goes : Formatter.externalRound state = .more next)
    (holds : P state.2) : P next.2 := by
  have sim := invariant.simulation
  have marked := invariant.markDeclaration holds
  have turn := externalTurn state
  rw [goes] at turn
  cases turn with
  | leftBrace => exact (sim.openBrace ⟨rfl, marked⟩).2
  | rightBrace => exact (sim.closeBrace ⟨rfl, marked⟩).2
  | assignment => exact (sim.expression .semicolon ⟨rfl, marked⟩).2
  | semicolon => exact (sim.endLine ⟨rfl, invariant.advance marked⟩).2
  | rightParen | other => exact invariant.advance marked

theorem BodyInvariant.reaches {P : Formatter Feed → Prop} (invariant : BodyInvariant P)
    {state later : Int × Formatter Feed} (reaches : Reaches Formatter.externalRound state later)
    (holds : P state.2) : P later.2 := by
  induction reaches with
  | here => exact holds
  | more goes _ ih => exact ih (invariant.externalRound goes holds)

/-- A header is left behind a closing parenthesis outside of braces, before the end. -/
theorem exists_reaches_of_header (header : f.externalDeclaration = (.header, g)) :
    ∃ last, Reaches externalRound (0, f) (0, last) ∧ last.kind = .rightParen ∧
      g = last.markDeclaration.advance ∧ g.kind ≠ .endOfFile := by
  obtain ⟨⟨braces, last⟩, reaches, leaves⟩ :=
    (consuming_externalLoop.finishes (0, f)).exists_reaches
  have loop : externalLoop (0, f) = (.header, g) := by
    rw [externalLoop]
    unfold externalDeclaration at header
    split at header
    · rename_i found
      rw [found, header]
    · simp at header
  rw [loop] at leaves
  have turn := externalTurn (braces, last)
  rw [leaves] at turn
  cases turn with
  | header closing apart =>
    refine ⟨last, reaches, closing, rfl, fun ends => ?_⟩
    rw [ends] at apart
    contradiction

/-! ## The lines of a header -/

section Header

variable {layout : Layout} {name : List Char} {marks : List Mark} {braces : Int}

/-- How far the reading of a declaration at file level has come, as for the lines of code behind so
many: it was marks only; or there are more lines; or it is over; or it will be, at a semicolon or
with a closing brace too many, unless a brace is opened before. -/
inductive InHeader (layout : Layout) (name : List Char) (start : Formatter Feed) (count : Nat) :
    Int → Formatter Feed → Prop
  | marks {f : Formatter Feed} {marks : List Mark} (inked : ∀ mark ∈ marks, mark.Inked)
      (script : f.script.toList = start.script.toList ++ marks.map Mark.command)
      (free : f.cursor.lookahead? = none) : InHeader layout name start count 0 f
  | written {braces : Int} {f : Formatter Feed}
      (more : count < (f.listingOn layout name).codeLines) :
      InHeader layout name start count braces f
  | ended {braces : Int} {f : Formatter Feed} (ends : f.kind = .endOfFile) :
      InHeader layout name start count braces f
  | closing {braces : Int} {f : Formatter Feed} (below : braces < 0) :
      InHeader layout name start count braces f
  | stopping {f : Formatter Feed} (stops : f.kind = .semicolon ∨ f.kind = .rightBrace) :
      InHeader layout name start count 0 f

theorem listingOn_of_script {said : List Command}
    (script : g.script.toList = f.script.toList ++ said) :
    g.listingOn layout name = (f.listingOn layout name).run said := by
  rw [listingOn, script, Listing.run_append]
  rfl

/-- Behind marks a token is a mark, too. If a directive stands behind it, the row is written. -/
theorem inHeader_advance {count : Nat} (fed : f.Fed) (notEnd : f.kind ≠ .endOfFile)
    (script : f.script.toList = start.script.toList ++ marks.map Mark.command)
    (free : f.cursor.lookahead? = none) (enough : count ≤ (f.listingOn layout name).codeLines) :
    f.advance.kind = .endOfFile ∨ count < (f.advance.listingOn layout name).codeLines ∨
      ∃ mark : Mark, mark.Inked ∧
        f.advance.script.toList = start.script.toList ++ (marks ++ [mark]).map Mark.command := by
  have filled := fed.lexeme_ne_nil free notEnd
  have release := Cursor.release_of_ne_nil filled
  have ends := (fed.commands.fetch rfl).1
  have next := advance_of_free free
  by_cases last : f.advance.kind = .endOfFile
  · exact Or.inl last
  right
  cases brought : f.cursor.source.fetch.1.commands with
  | nil =>
    right
    refine ⟨⟨f.cursor.current.lexeme, f.cursor.spacing⟩, ⟨filled, fed.ends ?_⟩, ?_⟩
    · intro empty
      rw [next, kind, Feed.fetch_of_ahead_eq_nil empty] at last
      exact last rfl
    · rw [next]
      simp [brought, release, script, Mark.command]
  | cons command others =>
    left
    have outgrows := Listing.outgrows_append enough filled f.cursor.spacing
    rw [listingOn_advance free, release, brought, List.singleton_append, Listing.run_cons]
    rw [brought] at ends
    exact outgrows.run_of_endsLine ends (List.cons_ne_nil _ _)

/-- A brace that is opened has a line. -/
theorem codeLines_openBrace {count : Nat} (fed : f.Fed) (brace : f.kind = .leftBrace)
    (enough : count ≤ (f.listingOn layout name).codeLines) :
    count < (f.openBrace.listingOn layout name).codeLines := by
  obtain ⟨free, _⟩ := fed.focus.free (by rw [brace]; rfl)
  have filled := fed.lexeme_ne_nil free (by rw [brace]; decide)
  have release := Cursor.release_of_ne_nil filled
  have ended : count ≤ (f.endLine.listingOn layout name).codeLines := by
    rw [endLine, listingOn_perform]
    exact Nat.le_trans enough (Listing.codeLines_le_apply _ _)
  have outgrows : (f.endLine.advance.listingOn layout name).Outgrows count := by
    have appended := Listing.outgrows_append ended filled f.cursor.spacing
    rw [listingOn_advance (f := f.endLine) free,
      show f.endLine.cursor.release = f.cursor.release from rfl, release, List.singleton_append,
      Listing.run_cons]
    exact appended.run (fed.commands.fetch rfl).1
  have lines : f.openBrace.listingOn layout name =
      ((f.endLine.advance.listingOn layout name).apply (.endLine false)).apply .indent := by
    rw [← listingOn_perform, ← listingOn_perform]
    rfl
  rw [lines]
  exact Nat.lt_of_lt_of_le outgrows.endLine (Listing.codeLines_le_apply _ _)

theorem keptBySteady_codeLines (count : Nat) :
    KeptBySteady fun listing => count ≤ listing.codeLines :=
  fun _ _ enough _ => Nat.le_trans enough (Listing.codeLines_le_apply _ _)

/-- A round keeps account of the lines of a header. -/
theorem InHeader.round {count : Nat} {after : Int}
    (inside : InHeader layout name start count braces f) (fed : f.Fed)
    (enough : count ≤ (f.listingOn layout name).codeLines)
    (goes : externalRound (braces, f) = .more (after, g)) :
    InHeader layout name start count after g := by
  have marked : f.markDeclaration.Fed := invariant_fed.markDeclaration fed
  have turn := externalTurn (braces, f)
  rw [goes] at turn
  cases inside with
  | written more =>
    have kept := bodyInvariant_listingOn (keptBySteady_codeLines (count + 1)) layout name
    exact .written (kept.externalRound goes ⟨fed.steady, more⟩).2
  | ended ends => simp [externalRound, ends] at goes
  | closing below =>
    cases turn with
    | leftBrace brace => exact .written (codeLines_openBrace marked brace enough)
    | rightBrace => exact .closing (by omega)
    | rightParen | assignment | semicolon | other => exact .closing below
  | stopping stops =>
    cases turn with
    | rightBrace => exact .closing (by decide)
    | semicolon inside => contradiction
    | leftBrace here | rightParen here | assignment here => simp [here] at stops
    | other _ _ noClose _ _ noSemicolon => exact absurd stops (not_or.mpr ⟨noSemicolon, noClose⟩)
  | marks inked script free =>
    have plain (notEnd : f.kind ≠ .endOfFile) :
        InHeader layout name start count 0 f.markDeclaration.advance := by
      rcases inHeader_advance marked notEnd script free enough with
        ends | more | ⟨mark, own, longer⟩
      · exact .ended ends
      · exact .written more
      · refine .marks ?_ longer (lookahead?_advance _)
        intro other member
        rcases List.mem_append.mp member with before | last
        · exact inked other before
        · rwa [List.mem_singleton.mp last]
    cases turn with
    | leftBrace brace => exact .written (codeLines_openBrace marked brace enough)
    | rightBrace => exact .closing (by decide)
    | semicolon inside => contradiction
    | rightParen closes => exact plain (by simp [closes])
    | other notEnd => exact plain notEnd
    | assignment =>
      rcases @stops_expression f.markDeclaration .semicolon with stops | ends | stops
      · exact .stopping (Or.inl stops)
      · exact .ended ends
      · exact .stopping (Or.inr stops)

/-- The rounds keep account of the lines of a header. -/
theorem InHeader.reaches {count : Nat} {state later : Int × Formatter Feed}
    (reaches : Reaches Formatter.externalRound state later) (fed : state.2.Fed)
    (enough : count ≤ (state.2.listingOn layout name).codeLines)
    (inside : InHeader layout name start count state.1 state.2) :
    later.2.Fed ∧ count ≤ (later.2.listingOn layout name).codeLines ∧
      InHeader layout name start count later.1 later.2 := by
  induction reaches with
  | here => exact ⟨fed, enough, inside⟩
  | more goes _ ih =>
    have kept := bodyInvariant_listingOn (keptBySteady_codeLines count) layout name
    exact ih (invariant_fed.externalRound goes fed) (kept.externalRound goes ⟨fed.steady, enough⟩).2
      (inside.round fed enough goes)

/-- The tokens of a header end at a closing parenthesis. What is said of them are marks only, unless
lines of code are written meanwhile. -/
theorem exists_appends_header (fed : f.Fed) (free : f.cursor.lookahead? = none)
    (header : f.externalDeclaration = (.header, g)) (layout : Layout) (name : List Char) :
    ∃ tokens said, Appends f tokens said g ∧ appended said = tokens.map (·.lexeme) ∧
      (∃ closing ∈ tokens.getLast?, closing.category = .rightParen) ∧
        ((∃ marks : List Mark, marks ≠ [] ∧ (∀ mark ∈ marks, mark.Inked) ∧
            said = marks.map Mark.command) ∨
          (f.listingOn layout name).codeLines < (g.listingOn layout name).codeLines) := by
  obtain ⟨last, reaches, closing, rfl, notLast⟩ := exists_reaches_of_header header
  obtain ⟨-, tokens, said, appends⟩ :=
    (bodyInvariant_appends f).reaches reaches ⟨fed, [], [], Appends.refl free⟩
  obtain ⟨lastFed, enough, inside⟩ := InHeader.reaches reaches fed (Nat.le_refl _)
    (.marks (fun _ member => absurd member List.not_mem_nil) (List.append_nil _).symm free)
  have marked : last.markDeclaration.Fed := invariant_fed.markDeclaration lastFed
  have notEnd : last.kind ≠ .endOfFile := by rw [closing]; decide
  have held : Appends f tokens said last.markDeclaration :=
    ⟨appends.ahead, appends.script, appends.appended⟩
  obtain ⟨more, whole⟩ := held.advance marked notEnd
  have lexemes : appended (said ++ more) = (tokens ++ [last.token]).map (·.lexeme) := by
    have added := whole.appended
    rw [lookahead?_advance last.markDeclaration, Option.map_none, Option.toList_none,
      List.append_nil] at added
    exact added
  refine ⟨tokens ++ [last.token], said ++ more, whole, lexemes, ⟨last.token, by simp, closing⟩, ?_⟩
  cases inside with
  | @marks _ marks inked script free =>
    rcases inHeader_advance marked notEnd script free enough with
      ends | written | ⟨mark, own, longer⟩
    · exact absurd ends notLast
    · exact Or.inr written
    · refine Or.inl ⟨marks ++ [mark], by simp, ?_, ?_⟩
      · simpa [or_imp, forall_and] using ⟨inked, own⟩
      · rw [whole.script] at longer
        exact List.append_cancel_left longer
  | written more =>
    right
    rw [listingOn_of_script whole.script]
    rw [listingOn_of_script appends.script] at more
    rw [Listing.run_append]
    exact Nat.lt_of_lt_of_le more (Listing.codeLines_le_run _ _)
  | ended ends => exact absurd ends notEnd
  | closing below => exact absurd below (Int.lt_irrefl 0)
  | stopping stops => simp [closing] at stops

end Header

end Formatter

end CListing
