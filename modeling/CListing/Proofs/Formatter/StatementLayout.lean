import CListing.Proofs.Formatter.StatementDrafts

/-!
# Layout of statements

Every well-formed statement is laid out in its lines, by induction on the tree: statements that
stand one after the other and the sections of a `switch` are read by loops, and all others by what
their first tokens say. The listing has the lines of the draft if each of them fits.
-/

namespace CListing

open Formatter

/-! ## Sequences -/

section Sequences

variable {first : Statement} {statements : Statements} {sections : Sections} {label : CaseLabel}

/-- Statements do not begin with an `else`. -/
theorem Statements.kind_ne_else {ahead rest : Feed} (wellFormed : statements.wellFormed = true)
    (supplies : ahead.Supplies statements.items rest) (noElse : rest.kind ≠ .kwElse) :
    ahead.kind ≠ .kwElse := by
  cases statements with
  | nil =>
    cases supplies with
    | nil _ => exact noElse
  | cons first statements =>
    rw [Statements.wellFormed, Bool.and_eq_true] at wellFormed
    obtain ⟨_, statement, _⟩ := supplies.split
    exact (first.begins wellFormed.1 statement).ne .kwElse rfl

theorem Statements.drafted_nil : Statements.nil.Drafted := by
  intro condition loop consuming _ base formatter ahead rest level lines drafts supplies stops _
  have here := drafts.stands.kind
  cases supplies with
  | nil _ =>
    rw [loop_of_not consuming (stops formatter here), Statements.lines, List.append_nil]
    exact drafts

theorem Statements.drafted_cons (wellFormed : (cons first statements).wellFormed = true)
    (drafted : first.wellFormed = true → first.Drafted)
    (later : statements.wellFormed = true → statements.Drafted) :
    (cons first statements).Drafted := by
  rw [Statements.wellFormed, Bool.and_eq_true] at wellFormed
  intro condition loop consuming goes base formatter ahead rest level lines drafts supplies stops
    noElse
  obtain ⟨middle, statement, others⟩ := supplies.split
  have begins := (first.begins wellFormed.1 statement).begins
  rw [← drafts.stands.kind] at begins
  have read := (drafted wellFormed.1).anywhere drafts statement
    (fun _ => Statements.kind_ne_else wellFormed.2 others noElse)
  have final := later wellFormed.2 consuming goes read others stops noElse
  rw [loop_of consuming (goes formatter begins), Statements.lines, ← List.append_assoc]
  exact final

theorem Sections.drafted_nil : Sections.nil.Drafted := by
  intro base formatter ahead rest level lines drafts supplies brace
  have here := drafts.stands.kind
  cases supplies with
  | nil _ =>
    rw [loop_of_not Call.consuming_sections (by simp [atBlockEnd, here, brace]), Sections.lines,
      List.append_nil]
    exact drafts

/-- A label of a `switch` begins with its keyword. -/
theorem CaseLabel.kind_eq {more : List Item} {ahead rest : Feed}
    (supplies : ahead.Supplies (label.tokens ++ more) rest) :
    ahead.kind = .kwCase ∨ ahead.kind = .kwDefault := by
  cases label with
  | ofValue value => exact Or.inl supplies.kind_eq
  | otherwise => exact Or.inr supplies.kind_eq

/-- The statements of a section end at the next label or at the closing brace. -/
theorem Sections.kind_eq {ahead rest : Feed} (supplies : ahead.Supplies sections.items rest)
    (brace : rest.kind = .rightBrace) :
    ahead.kind = .rightBrace ∨ ahead.kind = .kwCase ∨ ahead.kind = .kwDefault := by
  cases sections with
  | nil =>
    cases supplies with
    | nil _ => exact Or.inl brace
  | cons label statements sections => exact Or.inr (CaseLabel.kind_eq supplies)

theorem Sections.drafted_cons (wellFormed : (cons label statements sections).wellFormed = true)
    (drafted : statements.wellFormed = true → statements.Drafted)
    (later : sections.wellFormed = true → sections.Drafted) :
    (cons label statements sections).Drafted := by
  simp only [Sections.wellFormed, Bool.and_eq_true] at wellFormed
  intro base formatter ahead rest level lines drafts supplies brace
  have here := drafts.stands.kind
  have keyword := CaseLabel.kind_eq supplies
  have parts : (cons label statements sections).items =
      (label.tokens ++ [.fixed .colon]) ++ (statements.items ++ sections.items) := by
    simp [Sections.items]
  rw [parts] at supplies
  obtain ⟨start, labels, others⟩ := supplies.split
  obtain ⟨middle, body, behind⟩ := others.split
  have stops := Sections.kind_eq behind brace
  have deeper := (drafts.caseLabel wellFormed.1.1 labels).indent
  have read := drafted wellFormed.1.2 Call.consuming_section
    (fun formatter begins => by simp [apart_of_begins begins]) deeper body
    (fun formatter ends => by
      rcases stops with stop | stop | stop <;> simp [atCase, atBlockEnd, ends, stop])
    (by rcases stops with stop | stop | stop <;> simp [stop])
  have section_eq : switchSectionVia Formatter.statement formatter =
      caseBodyVia Formatter.statement formatter.caseLabel := by
    have labelled : formatter.atCase = true := by
      simpa [atCase, here] using keyword
    rw [switchSectionVia, if_pos labelled]
  have goes : formatter.atBlockEnd = false := by
    rcases keyword with value | otherwise <;> simp [atBlockEnd, *]
  have whole : Drafts base (caseBodyVia Formatter.statement formatter.caseLabel) middle _ :=
    read.idle.unindent
  rw [← section_eq] at whole
  have final := later wellFormed.2 whole behind brace
  rw [loop_of Call.consuming_sections (by rw [goes]; rfl), Sections.lines]
  simpa using final

end Sequences

/-! ## Trees -/

mutual

/-- Every well-formed statement is drafted. -/
theorem Statement.drafted : (statement : Statement) → statement.wellFormed = true →
    statement.Drafted
  | .expression _, wellFormed => Statement.drafted_expression wellFormed
  | .jump _, wellFormed => Statement.drafted_jump wellFormed
  | .result _, wellFormed => Statement.drafted_result wellFormed
  | .goesTo _, wellFormed => Statement.drafted_goesTo wellFormed
  | .labelled _ body, wellFormed => Statement.drafted_labelled wellFormed body.drafted
  | .block _ body, wellFormed => Statement.drafted_block wellFormed body.drafted
  | .ifThen _ body, wellFormed => Statement.drafted_ifThen wellFormed body.drafted
  | .ifElse _ body other, wellFormed =>
    Statement.drafted_ifElse wellFormed body.drafted other.drafted
  | .loop _ _ body, wellFormed => Statement.drafted_loop wellFormed body.drafted
  | .doWhile body _, wellFormed => Statement.drafted_doWhile wellFormed body.drafted
  | .switch _ sections, wellFormed => Statement.drafted_switch wellFormed sections.drafted

/-- Well-formed statements are drafted one after the other. -/
theorem Statements.drafted : (statements : Statements) → statements.wellFormed = true →
    statements.Drafted
  | .nil, _ => Statements.drafted_nil
  | .cons first rest, wellFormed => Statements.drafted_cons wellFormed first.drafted rest.drafted

/-- The well-formed sections of a `switch` are drafted. -/
theorem Sections.drafted : (sections : Sections) → sections.wellFormed = true → sections.Drafted
  | .nil, _ => Sections.drafted_nil
  | .cons _ body rest, wellFormed => Sections.drafted_cons wellFormed body.drafted rest.drafted

end

namespace Formatter

/-- From a line end on, a well-formed statement is read up to its last token, with nothing missing
and no token put back, and goes to the listing in its lines. The depth is the same afterwards and
no line is pending. The lines have to fit in the line width, no directive stands between the
tokens, and no `else` comes after a statement that ends in an `if` without one; page headings may
stand between the lines. -/
theorem statement_layout {statement : Statement} {formatter : Formatter Feed} {ahead rest : Feed}
    (wellFormed : statement.wellFormed = true) (stands : formatter.StandsAt ahead)
    (supplies : ahead.Supplies statement.items rest)
    (closed : statement.endsOpen = true → rest.kind ≠ .kwElse) :
    formatter.statement.StandsAt rest ∧
      formatter.statement.missing = formatter.missing ∧
      formatter.statement.misuse? = formatter.misuse? ∧
      formatter.statement.endless = formatter.endless ∧
      ∀ origin : Listing, (origin.run formatter.script.toList).pending = [] →
        (∀ planned ∈ statement.lines 0 [], planned.Fits (origin.run formatter.script.toList)) →
          (origin.run formatter.statement.script.toList).pending = [] ∧
          (origin.run formatter.statement.script.toList).indentation =
            (origin.run formatter.script.toList).indentation ∧
          (origin.run formatter.statement.script.toList).lines.toList.filter (!·.isHeading) =
            (origin.run formatter.script.toList).lines.toList.filter (!·.isHeading) ++
              (statement.lines 0 []).map (·.line (origin.run formatter.script.toList)) := by
  obtain ⟨after, kept, script, written, run⟩ :=
    (statement.drafted wellFormed).anywhere (Drafts.start stands) supplies closed
  refine ⟨after, ?_, ?_, ?_, ?_⟩
  · rw [kept]
  · rw [kept]
  · rw [kept]
  · intro origin empty fits
    rw [List.nil_append] at run
    have follows := run.follows ⟨fits, fun contrary => absurd rfl contrary⟩
      (Listing.Follows.start _ empty)
    rw [written, Listing.run_append]
    refine ⟨follows.pending, ?_, follows.lines⟩
    simpa using follows.indentation

/-- A block with a declaration and a label, and after the `else` a `switch` with a loop in it. -/
def nested : Statement :=
  .ifElse [⟨.identifier, ['a']⟩]
    (.block [⟨⟨.typeSpecifier, "int".toList⟩, [⟨.identifier, ['b']⟩]⟩]
      (.cons (.labelled ⟨.identifier, ['c']⟩
        (.expression [⟨.identifier, ['d']⟩, .fixed .leftParen, ⟨.identifier, ['b']⟩,
          ⟨.comma, [',']⟩, ⟨.unaryOrBinary, ['-']⟩, ⟨.constant, ['1']⟩, .fixed .rightParen])) .nil))
    (.switch [⟨.identifier, ['b']⟩]
      (.cons (.ofValue [⟨.constant, ['1']⟩]) (.cons (.jump (.fixed .kwBreak)) .nil)
        (.cons .otherwise
          (.cons (.loop (.fixed .kwWhile) [⟨.identifier, ['a']⟩] (.result [])) .nil) .nil)))

/-- The layout of a statement that stands at the head of a source, at depth zero. -/
theorem statement_layout_nested :
    ∃ feed rest, Feed.ofReader? (Reader.ofSource (Source.ofText
        ("if (a) \x7b int b; c: d(b, -1); \x7d else switch (b) " ++
          "\x7b case 1: break; default: while (a) return; \x7d;").toList)).1 = some feed ∧
      nested.wellFormed = true ∧ (standingAt feed).StandsAt feed ∧
      feed.Supplies nested.items rest ∧ (nested.endsOpen = true → rest.kind ≠ .kwElse) ∧
      (standingAt feed).statement.StandsAt rest ∧ (standingAt feed).statement.missing = 0 ∧
      (((Listing.blank {} "f.c".toList).run
          (standingAt feed).statement.script.toList).lines.toList.filter
            (!·.isHeading)).map (·.text) =
        ["if (a)", "\x7b", "    int b;", "", "    c: d(b, -1);", "\x7d", "else", "    switch (b)",
          "    \x7b", "        case 1:", "            break;", "        default:",
          "            while (a)", "                return;", "    \x7d"].map String.toList := by
  have tokens : (Source.ofText
      ("if (a) \x7b int b; c: d(b, -1); \x7d else switch (b) " ++
        "\x7b case 1: break; default: while (a) return; \x7d;").toList).items? =
      some (nested.items ++ [.fixed .semicolon]) := by
    decide +kernel
  obtain ⟨feed, rest, found, supplies, next⟩ :=
    Source.exists_supplies tokens (by decide +kernel) rfl
  have wellFormed : nested.wellFormed = true := by decide +kernel
  have stands := standsAt_standingAt feed
  have closed : nested.endsOpen = true → rest.kind ≠ .kwElse := by
    rw [next]
    decide
  obtain ⟨after, missing, _, _, listed⟩ := statement_layout wellFormed stands supplies closed
  have fits : ∀ planned ∈ nested.lines 0 [], planned.Fits (Listing.blank {} "f.c".toList) := by
    decide +kernel
  obtain ⟨_, _, lines⟩ := listed (Listing.blank {} "f.c".toList) rfl fits
  refine ⟨feed, rest, found, wellFormed, stands, supplies, closed, after, missing, ?_⟩
  have start : (Listing.blank {} "f.c".toList).run (standingAt feed).script.toList =
      Listing.blank {} "f.c".toList := rfl
  rw [lines, start]
  decide +kernel

end Formatter

end CListing
