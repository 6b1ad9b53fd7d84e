import CListing.Proofs.Formatter.Dispatch

/-!
# Statements in drafts

A formatter before the tokens of a well-formed statement reads exactly these tokens and adds the
lines of the statement to its draft, at whatever level it stands and whatever stands before it in
its row. Each kind of statement has a lemma, which supposes that the statements inside it are read
likewise.
-/

namespace CListing

namespace Category

/-- A token of the category may begin a statement. -/
def beginsStatement : Category → Bool
  | rightBrace | endOfFile | kwCase | kwDefault | kwElse => false
  | _ => true

end Category

open Formatter

/-! ## First tokens -/

namespace Statement

/-- What the category of its first token says about a statement. -/
structure Begins (statement : Statement) (category : Category) : Prop where
  begins : category.beginsStatement = true
  block : decide (category = .leftBrace) = statement.isBlock
  conditional : decide (category = .kwIf) = statement.isConditional

variable {statement : Statement} {ahead rest : Feed}

/-- A statement does not begin with a token that cannot begin one. -/
theorem Begins.ne {category : Category} (begins : statement.Begins category) (other : Category)
    (cannot : other.beginsStatement = false) : category ≠ other := by
  rintro rfl
  have can := begins.begins
  rw [cannot] at can
  contradiction

theorem begins_of_expression {category : Category} {tokens : List Item}
    (notEnd : category ≠ .endOfFile)
    (allowed : category = .leftParen ∨ category = .rightParen ∨ category.inExpression = true) :
    (expression tokens).Begins category := by
  cases category <;> first | exact ⟨rfl, rfl, rfl⟩ | contradiction

/-- A statement begins with the first of its tokens. -/
theorem begins (wellFormed : statement.wellFormed = true)
    (supplies : ahead.Supplies statement.items rest) : statement.Begins ahead.kind := by
  cases statement with
  | expression tokens =>
    rw [Statement.wellFormed, Bool.and_eq_true] at wellFormed
    cases tokens with
    | nil =>
      rw [supplies.kind_eq]
      exact ⟨rfl, rfl, rfl⟩
    | cons item tokens =>
      have notEnd := supplies.kind_ne_end_of_cons
      rw [supplies.kind_eq] at notEnd ⊢
      exact begins_of_expression notEnd (Item.balanced_cons wellFormed.1).1
  | labelled label body =>
    simp only [Statement.wellFormed, Bool.and_eq_true] at wellFormed
    rw [supplies.kind_eq]
    have name := wellFormed.1.1
    generalize label.category = category at name
    cases category <;> first | exact ⟨rfl, rfl, rfl⟩ | contradiction
  | jump keyword =>
    simp only [Statement.wellFormed, Bool.or_eq_true, decide_eq_true_iff] at wellFormed
    rw [supplies.kind_eq]
    rcases wellFormed with rfl | rfl <;> exact ⟨rfl, rfl, rfl⟩
  | loop keyword _ _ =>
    simp only [Statement.wellFormed, Bool.and_eq_true, Bool.or_eq_true, decide_eq_true_iff]
      at wellFormed
    rw [supplies.kind_eq]
    rcases wellFormed.1.1 with rfl | rfl <;> exact ⟨rfl, rfl, rfl⟩
  | _ =>
    rw [supplies.kind_eq]
    exact ⟨rfl, rfl, rfl⟩

end Statement

/-- Where a statement begins, no block ends and no label of a `switch` stands. -/
theorem apart_of_begins {formatter : Formatter Feed}
    (begins : formatter.kind.beginsStatement = true) :
    formatter.atBlockEnd = false ∧ formatter.atCase = false := by
  rw [atBlockEnd, atCase]
  generalize formatter.kind = category at begins
  cases category <;> first | decide | contradiction

/-! ## Statements inside others -/

/-- The reader of statements adds the lines of the statement to any draft and comes to the end of
its tokens. If the statement ends in an `if` without an `else`, no `else` stands after it. -/
def Statement.DraftedBy (statement : Statement) (read : Formatter Feed → Formatter Feed) : Prop :=
  ∀ ⦃base formatter : Formatter Feed⦄ ⦃ahead rest : Feed⦄ ⦃level : Nat⦄ ⦃row : List Mark⦄
    ⦃lines : List PlannedLine⦄, Drafts base formatter ahead ⟨level, row, lines⟩ →
      ahead.Supplies statement.items rest → (statement.endsOpen = true → rest.kind ≠ .kwElse) →
        Drafts base (read formatter) rest ⟨level, [], lines ++ statement.lines level row⟩

/-- The statement is drafted as a statement, and also as one without a label, if it has none. -/
structure Statement.Drafted (statement : Statement) : Prop where
  anywhere : statement.DraftedBy Formatter.statement
  unlabelled (noLabel : statement.isLabelled = false) :
    statement.DraftedBy (unlabelledVia Formatter.statement)

/-- A loop over statements drafts the statements one after the other, if it goes on where a
statement begins and stops behind them. -/
def Statements.Drafted (statements : Statements) : Prop :=
  ∀ ⦃condition : Formatter Feed → Bool⦄ ⦃loop : Formatter Feed → Formatter Feed⦄,
    Round.Consuming remaining (whileRound condition Formatter.statement) loop →
    (∀ formatter, formatter.kind.beginsStatement = true → condition formatter = true) →
    ∀ ⦃base formatter : Formatter Feed⦄ ⦃ahead rest : Feed⦄ ⦃level : Nat⦄
      ⦃lines : List PlannedLine⦄, Drafts base formatter ahead ⟨level, [], lines⟩ →
        ahead.Supplies statements.items rest →
        (∀ formatter, formatter.kind = rest.kind → condition formatter = false) →
        rest.kind ≠ .kwElse →
          Drafts base (loop formatter) rest ⟨level, [], lines ++ statements.lines level⟩

/-- The loop over the sections of a `switch` drafts them up to the closing brace. -/
def Sections.Drafted (sections : Sections) : Prop :=
  ∀ ⦃base formatter : Formatter Feed⦄ ⦃ahead rest : Feed⦄ ⦃level : Nat⦄
    ⦃lines : List PlannedLine⦄, Drafts base formatter ahead ⟨level + 1, [], lines⟩ →
      ahead.Supplies sections.items rest → rest.kind = .rightBrace →
        Drafts base
          (whileLoop (!·.atBlockEnd) (switchSectionVia Formatter.statement) formatter) rest
            ⟨level + 1, [], lines ++ sections.lines level⟩

namespace Statement

section Reading

variable {statement body : Statement} {condition : List Item}
variable {base formatter : Formatter Feed} {ahead rest : Feed} {level : Nat} {row : List Mark}
variable {lines : List PlannedLine}

/-- A statement that does not begin with a name is read as one without a label. -/
theorem drafted_of_unlabelled {first : Item} {others : List Item}
    (items : statement.items = first :: others) (noName : first.category.isName = false)
    (reads : statement.DraftedBy (unlabelledVia Formatter.statement)) : statement.Drafted := by
  refine ⟨?_, fun _ => reads⟩
  intro base formatter ahead rest level row lines drafts supplies closed
  have read := reads drafts supplies closed
  rw [items] at supplies
  have here := drafts.stands.kind.trans supplies.kind_eq
  rwa [← statement_of_not_name (by rw [here, noName])] at read

/-- A block under a condition or a loop keeps the level, and other statements stand one level
deeper. -/
theorem Drafted.substatement (drafted : body.Drafted) (wellFormed : body.wellFormed = true)
    (drafts : Drafts base formatter ahead ⟨level, [], lines⟩)
    (supplies : ahead.Supplies body.items rest)
    (closed : body.endsOpen = true → rest.kind ≠ .kwElse) :
    Drafts base formatter.substatement rest
      ⟨level, [], lines ++ body.lines (body.levelUnder level) []⟩ := by
  have here := drafts.stands.kind
  have block := (body.begins wellFormed supplies).block
  rw [Formatter.substatement, substatementVia, levelUnder, here]
  cases isBlock : body.isBlock with
  | true =>
    rw [isBlock, decide_eq_true_iff] at block
    have noLabel : body.isLabelled = false := by
      cases body <;> first | rfl | contradiction
    have compound : unlabelledVia Formatter.statement formatter =
        compoundVia Formatter.statement formatter := by
      rw [unlabelledVia, here, block]
    rw [if_pos block, if_pos rfl, ← compound]
    exact drafted.unlabelled noLabel drafts supplies closed
  | false =>
    rw [isBlock, decide_eq_false_iff_not] at block
    rw [if_neg block, if_neg Bool.false_ne_true]
    have deeper := drafts.indent
    exact (drafted.anywhere deeper supplies closed).unindent

/-- A keyword with a condition stands on a line before the statement that it controls. -/
theorem Drafted.controlled (drafted : body.Drafted) (wellFormed : body.wellFormed = true)
    (isExpression : Item.isExpression .rightParen condition = true) {keyword : Item}
    (drafts : Drafts base formatter ahead ⟨level, row, lines⟩)
    (supplies : ahead.Supplies (header keyword condition ++ body.items) rest)
    (closed : body.endsOpen = true → rest.kind ≠ .kwElse) :
    Drafts base (controlledVia Formatter.statement formatter) rest
      ⟨level, [], lines ++ (.row level (row ++ headerMarks keyword condition) ::
        body.lines (body.levelUnder level) [])⟩ := by
  obtain ⟨middle, first, inside⟩ := supplies.split
  have goesOn := (body.begins wellFormed inside).ne .endOfFile rfl
  have read := drafts.header isExpression first goesOn
  have ended := read.endLine (by simp [headerMarks])
  have controlled := drafted.substatement wellFormed ended inside closed
  rwa [List.append_assoc] at controlled

/-! ## Statements without others inside -/

/-- An expression with its semicolon becomes a row. -/
theorem drafts_expressionStatement {tokens : List Item}
    (isExpression : Item.isExpression .semicolon tokens = true)
    (drafts : Drafts base formatter ahead ⟨level, row, lines⟩)
    (supplies : ahead.Supplies (tokens ++ [.fixed .semicolon]) rest) :
    Drafts base formatter.expressionStatement rest
      ⟨level, [], lines ++ [.row level
        (row ++ expressionMarks .foreign tokens ++ [(Item.fixed .semicolon).mark .free])]⟩ := by
  obtain ⟨middle, inside, behind⟩ := supplies.split
  have read := drafts.expression isExpression inside behind.kind_eq behind.kind_ne_end_of_cons
    (by decide)
  exact read.endStatement behind

/-- An expression statement begins with no keyword and no brace. -/
theorem plain_of_isExpression {tokens : List Item}
    (isExpression : Item.isExpression .semicolon tokens = true)
    (supplies : ahead.Supplies (tokens ++ [.fixed .semicolon]) rest) :
    ahead.kind.isControl = false ∧ ahead.kind ≠ .leftBrace := by
  cases tokens with
  | nil =>
    rw [supplies.kind_eq]
    decide
  | cons item tokens =>
    rw [supplies.kind_eq]
    rcases (Item.balanced_cons isExpression).1 with opens | closes | allowed
    · rw [opens]
      decide
    · rw [closes]
      decide
    · simp only [Category.inExpression, Bool.and_eq_true, Bool.not_eq_true', decide_eq_true_iff]
        at allowed
      exact allowed.1

/-- After the name that an expression statement begins with there is no colon. -/
theorem kind_ne_colon {tokens : List Item} (noLabel : Item.beginsWithLabel tokens = false)
    (supplies : ahead.Supplies (tokens ++ [.fixed .semicolon]) rest)
    (name : ahead.kind.isName = true) (drafts : Drafts base formatter ahead ⟨level, row, lines⟩) :
    formatter.advance.kind ≠ .colon := by
  cases tokens with
  | nil =>
    rw [supplies.kind_eq] at name
    contradiction
  | cons item tokens =>
    rw [supplies.kind_eq] at name
    obtain ⟨next, own, later⟩ := supplies.cons_split
    have read := drafts.advance own (later.kind_ne_end_of_ne_nil (by simp))
    rw [read.stands.kind]
    cases tokens with
    | nil =>
      rw [later.kind_eq]
      decide
    | cons second tokens =>
      rw [later.kind_eq]
      simpa [Item.beginsWithLabel, name] using noLabel

theorem drafted_expression {tokens : List Item}
    (wellFormed : (expression tokens).wellFormed = true) : (expression tokens).Drafted := by
  rw [Statement.wellFormed, Bool.and_eq_true, Bool.not_eq_true'] at wellFormed
  obtain ⟨isExpression, noLabel⟩ := wellFormed
  have unlabelled : (expression tokens).DraftedBy (unlabelledVia Formatter.statement) := by
    intro base formatter ahead rest level row lines drafts supplies _
    obtain ⟨noControl, noBrace⟩ := plain_of_isExpression isExpression supplies
    rw [← drafts.stands.kind] at noControl noBrace
    rw [unlabelledVia_of_plain noControl noBrace]
    exact drafts_expressionStatement isExpression drafts supplies
  refine ⟨?_, fun _ => unlabelled⟩
  intro base formatter ahead rest level row lines drafts supplies closed
  cases name : ahead.kind.isName with
  | true =>
    have noColon := kind_ne_colon noLabel supplies name drafts
    rw [← drafts.stands.kind] at name
    rw [statement_of_name name noColon]
    exact drafts_expressionStatement isExpression drafts supplies
  | false =>
    rw [← drafts.stands.kind] at name
    rw [statement_of_not_name name]
    exact unlabelled drafts supplies closed

theorem drafted_jump {keyword : Item} (wellFormed : (jump keyword).wellFormed = true) :
    (jump keyword).Drafted := by
  simp only [Statement.wellFormed, Bool.or_eq_true, decide_eq_true_iff] at wellFormed
  have noName : keyword.category.isName = false := by
    rcases wellFormed with rfl | rfl <;> rfl
  refine drafted_of_unlabelled rfl noName ?_
  intro base formatter ahead rest level row lines drafts supplies _
  have here := drafts.stands.kind.trans supplies.kind_eq
  have jumps : unlabelledVia Formatter.statement formatter = formatter.advance.endStatement := by
    rw [unlabelledVia, here]
    rcases wellFormed with rfl | rfl <;> rfl
  obtain ⟨next, own, later⟩ := supplies.cons_split
  have read := drafts.advance own later.kind_ne_end_of_cons
  have ended := read.endStatement later
  rw [List.append_assoc] at ended
  rwa [jumps]

theorem drafted_result {value : List Item} (wellFormed : (result value).wellFormed = true) :
    (result value).Drafted := by
  refine drafted_of_unlabelled rfl rfl ?_
  intro base formatter ahead rest level row lines drafts supplies _
  have here := drafts.stands.kind.trans supplies.kind_eq
  have returns : unlabelledVia Formatter.statement formatter =
      formatter.advance.expressionStatement := by
    rw [unlabelledVia, here]
    exact returnStatement_eq formatter
  obtain ⟨next, own, later⟩ := supplies.cons_split
  have read := drafts.advance own (later.kind_ne_end_of_ne_nil (by simp))
  have ended := drafts_expressionStatement wellFormed read later
  rw [List.append_assoc, List.append_assoc] at ended
  rwa [returns]

theorem drafted_goesTo {label : Item} (wellFormed : (goesTo label).wellFormed = true) :
    (goesTo label).Drafted := by
  refine drafted_of_unlabelled rfl rfl ?_
  intro base formatter ahead rest level row lines drafts supplies _
  have here := drafts.stands.kind.trans supplies.kind_eq
  obtain ⟨name, own, later⟩ := supplies.cons_split
  have read := drafts.advance own later.kind_ne_end_of_cons
  have named : formatter.advance.kind.isName = true := by
    rw [read.stands.kind.trans later.kind_eq]
    exact wellFormed
  have goes : unlabelledVia Formatter.statement formatter =
      formatter.advance.advance.endStatement := by
    rw [unlabelledVia, here]
    exact gotoStatement_of_name named
  obtain ⟨next, second, last⟩ := later.cons_split
  have again := read.advance second last.kind_ne_end_of_cons
  have ended := again.endStatement last
  rw [List.append_assoc, List.append_assoc] at ended
  rwa [goes]

/-! ## Statements with others inside -/

theorem drafted_labelled {label : Item} (wellFormed : (labelled label body).wellFormed = true)
    (drafted : body.wellFormed = true → body.Drafted) : (labelled label body).Drafted := by
  simp only [Statement.wellFormed, Bool.and_eq_true, Bool.not_eq_true'] at wellFormed
  obtain ⟨⟨name, noLabel⟩, inside⟩ := wellFormed
  refine ⟨?_, fun contrary => absurd contrary (by simp [isLabelled])⟩
  intro base formatter ahead rest level row lines drafts supplies closed
  obtain ⟨next, first, later⟩ := supplies.cons_split
  have read := drafts.advance first later.kind_ne_end_of_cons
  obtain ⟨start, second, last⟩ := later.cons_split
  have begins := body.begins inside last
  have again := read.read second (begins.ne .endOfFile rfl) .left
  have labels : formatter.statement =
      unlabelledVia Formatter.statement (formatter.advance.adjust .left).advance := by
    refine statement_of_label ?_ (read.stands.kind.trans later.kind_eq) ?_
    · rwa [drafts.stands.kind.trans supplies.kind_eq]
    · rw [again.stands.kind]
      exact begins.ne .rightBrace rfl
  rw [List.append_assoc] at again
  rw [labels]
  exact (drafted inside).unlabelled noLabel again last closed

theorem drafted_block {declarations : List Declaration} {inside : Statements}
    (wellFormed : (block declarations inside).wellFormed = true)
    (drafted : inside.wellFormed = true → inside.Drafted) :
    (block declarations inside).Drafted := by
  simp only [Statement.wellFormed, Bool.and_eq_true, Bool.not_eq_true'] at wellFormed
  obtain ⟨⟨declared, noDeclaration⟩, each⟩ := wellFormed
  refine drafted_of_unlabelled rfl rfl ?_
  intro base formatter ahead rest level row lines drafts supplies _
  have here := drafts.stands.kind.trans supplies.kind_eq
  have compound : unlabelledVia Formatter.statement formatter =
      compoundVia Formatter.statement formatter := by
    rw [unlabelledVia, here]
    rfl
  obtain ⟨opened, opening, later⟩ := supplies.cons_split
  obtain ⟨middle, head, others⟩ := later.split
  obtain ⟨last, statements, closing⟩ := others.split
  have stops : middle.kind.startsDeclaration = false := by
    cases items : inside.items with
    | nil =>
      rw [items] at others
      rw [others.kind_eq]
      rfl
    | cons item items' =>
      rw [items] at others noDeclaration
      rw [others.kind_eq]
      simpa using noDeclaration
  have deeper := (drafts.expectLast opening).indent
  have declarations := deeper.blockDeclarations declared head stops
  have brace : last.kind = .rightBrace := closing.kind_eq
  have read := drafted each Call.consuming_statements
    (fun formatter begins => by simp [(apart_of_begins begins).1]) declarations statements
    (fun formatter here => by simp [atBlockEnd, here, brace]) (by simp [brace])
  have higher := read.idle.unindent
  have closed : Drafts base (compoundVia Formatter.statement formatter) rest _ :=
    higher.expectLast closing
  rw [compound]
  simpa [Statement.lines] using closed

theorem drafted_ifThen (wellFormed : (ifThen condition body).wellFormed = true)
    (drafted : body.wellFormed = true → body.Drafted) : (ifThen condition body).Drafted := by
  rw [Statement.wellFormed, Bool.and_eq_true] at wellFormed
  obtain ⟨isExpression, inside⟩ := wellFormed
  refine drafted_of_unlabelled rfl rfl ?_
  intro base formatter ahead rest level row lines drafts supplies closed
  have here := drafts.stands.kind.trans supplies.kind_eq
  have read := (drafted inside).controlled inside isExpression drafts supplies
    (fun _ => closed rfl)
  rw [unlabelledVia_of_if here, ifStatement_eq]
  dsimp only
  rwa [if_neg]
  rw [read.stands.kind]
  exact closed rfl

theorem drafted_ifElse {other : Statement}
    (wellFormed : (ifElse condition body other).wellFormed = true)
    (drafted : body.wellFormed = true → body.Drafted)
    (otherDrafted : other.wellFormed = true → other.Drafted) :
    (ifElse condition body other).Drafted := by
  simp only [Statement.wellFormed, Bool.and_eq_true, Bool.not_eq_true'] at wellFormed
  obtain ⟨⟨⟨isExpression, noOpen⟩, first⟩, second⟩ := wellFormed
  refine drafted_of_unlabelled rfl rfl ?_
  intro base formatter ahead rest level row lines drafts supplies closed
  have here := drafts.stands.kind.trans supplies.kind_eq
  rw [Statement.items, ← List.append_assoc] at supplies
  obtain ⟨middle, inside, behind⟩ := supplies.split
  have read := (drafted first).controlled first isExpression drafts inside (by simp [noOpen])
  obtain ⟨next, own, later⟩ := behind.cons_split
  have begins := other.begins second later
  have after := read.advance own (begins.ne .endOfFile rfl)
  rw [unlabelledVia_of_if here, ifStatement_eq]
  dsimp only
  have keyword : middle.kind = .kwElse := behind.kind_eq
  rw [if_pos (read.stands.kind.trans keyword), after.stands.kind, Statement.lines]
  cases again : other.isConditional with
  | true =>
    have conditional := begins.conditional
    rw [again, decide_eq_true_iff] at conditional
    have noLabel : other.isLabelled = false := by
      cases other <;> first | rfl | contradiction
    -- The second `if` goes on in the row of the `else`, and not through `statement`.
    have final := (otherDrafted second).unlabelled noLabel after later closed
    rw [unlabelledVia_of_if (after.stands.kind.trans conditional)] at final
    rw [if_pos conditional, if_pos rfl]
    simpa using final
  | false =>
    have conditional := begins.conditional
    rw [again, decide_eq_false_iff_not] at conditional
    have ended := after.endLine (by simp)
    have final := (otherDrafted second).substatement second ended later closed
    rw [if_neg conditional, if_neg Bool.false_ne_true]
    simpa using final

theorem drafted_loop {keyword : Item}
    (wellFormed : (loop keyword condition body).wellFormed = true)
    (drafted : body.wellFormed = true → body.Drafted) : (loop keyword condition body).Drafted := by
  simp only [Statement.wellFormed, Bool.and_eq_true, Bool.or_eq_true, decide_eq_true_iff]
    at wellFormed
  obtain ⟨⟨known, isExpression⟩, inside⟩ := wellFormed
  have noName : keyword.category.isName = false := by
    rcases known with rfl | rfl <;> rfl
  refine drafted_of_unlabelled rfl noName ?_
  intro base formatter ahead rest level row lines drafts supplies closed
  have here := drafts.stands.kind.trans supplies.kind_eq
  have loops : unlabelledVia Formatter.statement formatter =
      controlledVia Formatter.statement formatter := by
    rw [unlabelledVia, here]
    rcases known with rfl | rfl <;> rfl
  rw [loops]
  exact (drafted inside).controlled inside isExpression drafts supplies closed

theorem drafted_doWhile (wellFormed : (doWhile body condition).wellFormed = true)
    (drafted : body.wellFormed = true → body.Drafted) : (doWhile body condition).Drafted := by
  rw [Statement.wellFormed, Bool.and_eq_true] at wellFormed
  obtain ⟨isExpression, inside⟩ := wellFormed
  refine drafted_of_unlabelled rfl rfl ?_
  intro base formatter ahead rest level row lines drafts supplies _
  have here := drafts.stands.kind.trans supplies.kind_eq
  have repeats : unlabelledVia Formatter.statement formatter =
      (((formatter.advance.endLine.substatement).expect .kwWhile).parenthesized).endStatement := by
    rw [unlabelledVia, here]
    rfl
  obtain ⟨next, own, later⟩ := supplies.cons_split
  obtain ⟨middle, statement, behind⟩ := later.split
  have first := drafts.advance own (later.kind_ne_end_of_ne_nil (by simp [header]))
  have ended := first.endLine (by simp)
  have keyword : middle.kind = .kwWhile := behind.kind_eq
  have read := (drafted inside).substatement inside ended statement (by simp [keyword])
  obtain ⟨final, whole, semicolon⟩ := behind.split
  have tested := read.header isExpression whole semicolon.kind_ne_end_of_cons
  have last := tested.endStatement semicolon
  rw [← expect_of_kind (read.stands.kind.trans keyword)] at last
  rw [repeats]
  simpa [Statement.lines] using last

theorem drafted_switch {sections : Sections}
    (wellFormed : (switch condition sections).wellFormed = true)
    (drafted : sections.wellFormed = true → sections.Drafted) :
    (switch condition sections).Drafted := by
  rw [Statement.wellFormed, Bool.and_eq_true] at wellFormed
  refine drafted_of_unlabelled rfl rfl ?_
  intro base formatter ahead rest level row lines drafts supplies _
  have here := drafts.stands.kind.trans supplies.kind_eq
  have switches : unlabelledVia Formatter.statement formatter =
      switchVia Formatter.statement formatter := by
    rw [unlabelledVia, here]
    rfl
  obtain ⟨brace, first, later⟩ := supplies.split
  have header := drafts.header wellFormed.1 first later.kind_ne_end_of_cons
  have ended := header.endLine (by simp [headerMarks])
  obtain ⟨inside, opening, others⟩ := later.cons_split
  obtain ⟨last, body, closing⟩ := others.split
  have deeper := (ended.expectLast opening).indent
  have read := drafted wellFormed.2 deeper body closing.kind_eq
  have higher := read.unindent
  have closed : Drafts base (switchVia Formatter.statement formatter) rest _ :=
    higher.expectLast closing
  rw [switches]
  simpa [Statement.lines] using closed

end Reading

end Statement

end CListing
