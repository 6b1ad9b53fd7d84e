import CListing.Proofs.Formatter.Rounds

/-!
# Calls

Statements, the parts they are made of, and expressions are read by functions that call one another.
A call is made from a certain state of the formatter, and the loops of the caller decide from which
states further calls are made. Each call leads to calls before which fewer tokens remain, or as many
and of a lower rank, so no chain of calls is infinite. A block without its opening brace and a
statement that begins at the end of the source consume nothing before they call others; then they
rank highest, since nobody calls them without having consumed something.
-/

namespace CListing.Formatter

open Round

/-- A call of one of the functions that read statements, declarations and expressions, from a state
of the formatter. -/
inductive Call
  | statement (formatter : Formatter Feed)
  | substatement (formatter : Formatter Feed)
  | block (formatter : Formatter Feed)
  | conditional (formatter : Formatter Feed)
  /-- A `while` or `for`. -/
  | loop (formatter : Formatter Feed)
  /-- A `do` with its condition. -/
  | doLoop (formatter : Formatter Feed)
  /-- A `switch`. -/
  | choice (formatter : Formatter Feed)
  | declaration (formatter : Formatter Feed)
  | expression (terminator : Category) (formatter : Formatter Feed)

namespace Call

/-- Where the reading of a statement goes on after its label, or at the name that is no label. -/
def afterLabel? (formatter : Formatter Feed) : Option (Formatter Feed) :=
  if formatter.kind.isName then
    if formatter.advance.kind = .colon then
      let labelled := (formatter.advance.adjust .left).advance
      if labelled.kind = .rightBrace then none else some labelled
    else some (formatter.advance.putBack.lookAt formatter.token)
  else some formatter

/-- The call that reads a statement without a label, by the token that begins it. A `break`, a
`continue`, a `goto` and a `return` without a value call nothing. -/
def unlabelled? (formatter : Formatter Feed) : Option Call :=
  match formatter.kind with
  | .leftBrace => some (block formatter)
  | .kwSwitch => some (choice formatter)
  | .kwBreak | .kwContinue | .kwGoto => none
  | .kwReturn =>
    if formatter.advance.kind = .semicolon then none
    else some (expression .semicolon formatter.advance)
  | .kwIf => some (conditional formatter)
  | .kwWhile | .kwFor => some (loop formatter)
  | .kwDo => some (doLoop formatter)
  | _ => some (expression .semicolon formatter)

/-- Where the reading of a block comes after its opening brace. -/
def insideBlock (formatter : Formatter Feed) : Formatter Feed :=
  (formatter.expect .leftBrace).endLine.indent

/-- Where the reading of a `switch` comes after its opening brace. -/
def insideChoice (formatter : Formatter Feed) : Formatter Feed :=
  (formatter.advance.parenthesized.endLine.expect .leftBrace).endLine.indent

/-- Where the statements of a section of a `switch` begin. -/
def sectionBody (formatter : Formatter Feed) : Formatter Feed :=
  (if formatter.atCase then formatter.caseLabel else formatter).indent

/-- A round of the loop over the declarations of a block. -/
def declarationsRound : Formatter Feed → Round (Formatter Feed) (Formatter Feed) :=
  whileRound (·.kind.startsDeclaration) Formatter.declaration

/-- A round of the loop over the statements of a block. -/
def statementsRound : Formatter Feed → Round (Formatter Feed) (Formatter Feed) :=
  whileRound (!·.atBlockEnd) Formatter.statement

/-- A round of the loop over the sections of a `switch`. -/
def sectionsRound : Formatter Feed → Round (Formatter Feed) (Formatter Feed) :=
  whileRound (!·.atBlockEnd) (switchSectionVia Formatter.statement)

/-- A round of the loop over the statements of a section. -/
def sectionRound : Formatter Feed → Round (Formatter Feed) (Formatter Feed) :=
  whileRound (fun f => !f.atCase && !f.atBlockEnd) Formatter.statement

/-- The first call makes the second one itself. -/
inductive Makes : Call → Call → Prop
  | ofStatement {f start : Formatter Feed} {callee : Call} (label : afterLabel? f = some start)
      (begins : unlabelled? start = some callee) : Makes (statement f) callee
  | blockOfSubstatement {f : Formatter Feed} (begins : f.kind = .leftBrace) :
      Makes (substatement f) (block f)
  | statementOfSubstatement {f : Formatter Feed} (begins : f.kind ≠ .leftBrace) :
      Makes (substatement f) (statement f.indent)
  | declarationOfBlock {f later : Formatter Feed}
      (reaches : Reaches declarationsRound (insideBlock f) later)
      (goes : later.kind.startsDeclaration = true) : Makes (block f) (declaration later)
  | statementOfBlock {f later : Formatter Feed}
      (reaches : Reaches statementsRound (insideBlock f).blockDeclarations later)
      (goes : later.atBlockEnd = false) : Makes (block f) (statement later)
  | conditionOfConditional {f : Formatter Feed} (opens : f.advance.kind = .leftParen) :
      Makes (conditional f) (expression .rightParen f.advance.advance)
  | thenOfConditional {f : Formatter Feed} :
      Makes (conditional f) (substatement f.advance.parenthesized.endLine)
  | againOfConditional {f : Formatter Feed}
      (goes : (controlledVia Formatter.statement f).kind = .kwElse)
      (again : (controlledVia Formatter.statement f).advance.kind = .kwIf) :
      Makes (conditional f) (conditional (controlledVia Formatter.statement f).advance)
  | elseOfConditional {f : Formatter Feed}
      (goes : (controlledVia Formatter.statement f).kind = .kwElse)
      (other : (controlledVia Formatter.statement f).advance.kind ≠ .kwIf) :
      Makes (conditional f) (substatement (controlledVia Formatter.statement f).advance.endLine)
  | conditionOfLoop {f : Formatter Feed} (opens : f.advance.kind = .leftParen) :
      Makes (loop f) (expression .rightParen f.advance.advance)
  | bodyOfLoop {f : Formatter Feed} : Makes (loop f) (substatement f.advance.parenthesized.endLine)
  | bodyOfDoLoop {f : Formatter Feed} : Makes (doLoop f) (substatement f.advance.endLine)
  | conditionOfDoLoop {f after : Formatter Feed}
      (body : after = (f.advance.endLine.substatement).expect .kwWhile)
      (opens : after.kind = .leftParen) : Makes (doLoop f) (expression .rightParen after.advance)
  | conditionOfChoice {f : Formatter Feed} (opens : f.advance.kind = .leftParen) :
      Makes (choice f) (expression .rightParen f.advance.advance)
  | labelOfChoice {f later : Formatter Feed}
      (reaches : Reaches sectionsRound (insideChoice f) later) (goes : later.atBlockEnd = false)
      (label : later.atCase = true) : Makes (choice f) (expression .colon later)
  | statementOfChoice {f place later : Formatter Feed}
      (reaches : Reaches sectionsRound (insideChoice f) place) (goes : place.atBlockEnd = false)
      (inside : Reaches sectionRound (sectionBody place) later)
      (continues : (!later.atCase && !later.atBlockEnd) = true) :
      Makes (choice f) (statement later)
  | initializerOfDeclaration {f later : Formatter Feed} {braces : Nat}
      (reaches : Reaches declarationRound (0, f) (braces, later))
      (assigns : later.kind = .assignment) :
      Makes (declaration f) (expression .semicolon later.markDeclaration)
  | innerOfExpression {terminator previous : Category} {braces : Nat} {f later : Formatter Feed}
      (reaches : Reaches (expressionRound terminator) (.foreign, 0, f) (previous, braces, later))
      (goes : later.kind ≠ terminator) (opens : later.kind = .leftParen) :
      Makes (expression terminator f)
        (expression .rightParen ((later.markExpression previous).markCall previous).advance)

/-! ## What each call makes -/

section Callees

variable {f : Formatter Feed} {callee : Call}

theorem makes_statement_iff :
    Makes (statement f) callee ↔
      ∃ start, afterLabel? f = some start ∧ unlabelled? start = some callee := by
  constructor
  · intro makes
    cases makes with
    | ofStatement label begins => exact ⟨_, label, begins⟩
  · rintro ⟨start, label, begins⟩
    exact .ofStatement label begins

theorem makes_substatement_iff :
    Makes (substatement f) callee ↔
      callee = if f.kind = .leftBrace then block f else statement f.indent := by
  constructor
  · intro makes
    cases makes with
    | blockOfSubstatement begins => rw [if_pos begins]
    | statementOfSubstatement begins => rw [if_neg begins]
  · rintro rfl
    split
    · exact .blockOfSubstatement ‹_›
    · exact .statementOfSubstatement ‹_›

theorem makes_conditional_iff :
    Makes (conditional f) callee ↔
      (f.advance.kind = .leftParen ∧ callee = expression .rightParen f.advance.advance) ∨
      callee = substatement f.advance.parenthesized.endLine ∨
      let after := controlledVia Formatter.statement f
      after.kind = .kwElse ∧
        callee = if after.advance.kind = .kwIf then conditional after.advance
          else substatement after.advance.endLine := by
  constructor
  · intro makes
    cases makes with
    | conditionOfConditional opens => exact Or.inl ⟨opens, rfl⟩
    | thenOfConditional => exact Or.inr (Or.inl rfl)
    | againOfConditional goes again => exact Or.inr (Or.inr ⟨goes, (if_pos again).symm⟩)
    | elseOfConditional goes other => exact Or.inr (Or.inr ⟨goes, (if_neg other).symm⟩)
  · rintro (⟨opens, rfl⟩ | rfl | ⟨goes, rfl⟩)
    · exact .conditionOfConditional opens
    · exact .thenOfConditional
    · split
      · exact .againOfConditional goes ‹_›
      · exact .elseOfConditional goes ‹_›

theorem makes_loop_iff :
    Makes (loop f) callee ↔
      (f.advance.kind = .leftParen ∧ callee = expression .rightParen f.advance.advance) ∨
      callee = substatement f.advance.parenthesized.endLine := by
  constructor
  · intro makes
    cases makes with
    | conditionOfLoop opens => exact Or.inl ⟨opens, rfl⟩
    | bodyOfLoop => exact Or.inr rfl
  · rintro (⟨opens, rfl⟩ | rfl)
    · exact .conditionOfLoop opens
    · exact .bodyOfLoop

theorem makes_doLoop_iff :
    Makes (doLoop f) callee ↔
      callee = substatement f.advance.endLine ∨
      let after := f.advance.endLine.substatement.expect .kwWhile
      after.kind = .leftParen ∧ callee = expression .rightParen after.advance := by
  constructor
  · intro makes
    cases makes with
    | bodyOfDoLoop => exact Or.inl rfl
    | conditionOfDoLoop body opens =>
      subst body
      exact Or.inr ⟨opens, rfl⟩
  · rintro (rfl | ⟨opens, rfl⟩)
    · exact .bodyOfDoLoop
    · exact .conditionOfDoLoop rfl opens

end Callees

/-- The formatter from which the call is made. -/
def formatter : Call → Formatter Feed
  | statement f | substatement f | block f | conditional f | loop f | doLoop f | choice f
  | declaration f | expression _ f => f

/-- What the call comes to. -/
def result : Call → Formatter Feed
  | statement f => f.statement
  | substatement f => f.substatement
  | block f => f.compoundStatement
  | conditional f => f.ifStatement
  | loop f => f.loopStatement
  | doLoop f => f.doStatement
  | choice f => f.switchStatement
  | declaration f => f.declaration
  | expression terminator f => f.expression terminator

/-- How a statement without a label is read, by the token that begins it: the call to which it is
left, if there is one, and what it comes to. -/
inductive Unlabelled (f : Formatter Feed) : Option Call → Formatter Feed → Prop
  | block (begins : f.kind = .leftBrace) : Unlabelled f (some (.block f)) f.compoundStatement
  | choice (begins : f.kind = .kwSwitch) : Unlabelled f (some (.choice f)) f.switchStatement
  | conditional (begins : f.kind = .kwIf) : Unlabelled f (some (.conditional f)) f.ifStatement
  | loop (begins : f.kind = .kwWhile ∨ f.kind = .kwFor) :
      Unlabelled f (some (.loop f)) f.loopStatement
  | doLoop (begins : f.kind = .kwDo) : Unlabelled f (some (.doLoop f)) f.doStatement
  | expression : Unlabelled f (some (.expression .semicolon f)) f.expressionStatement
  | value (begins : f.kind = .kwReturn) (filled : f.advance.kind ≠ .semicolon) :
      Unlabelled f (some (.expression .semicolon f.advance)) f.returnStatement
  | bareReturn (begins : f.kind = .kwReturn) (bare : f.advance.kind = .semicolon) :
      Unlabelled f none f.returnStatement
  | jump (begins : f.kind = .kwBreak ∨ f.kind = .kwContinue) : Unlabelled f none f.jumpStatement
  | goTo (begins : f.kind = .kwGoto) : Unlabelled f none f.gotoStatement

theorem unlabelled (f : Formatter Feed) :
    Unlabelled f (unlabelled? f) (unlabelledVia Formatter.statement f) := by
  unfold unlabelledVia
  split <;> rename_i begins
  · rw [unlabelled?, begins]
    exact .block begins
  · rw [unlabelled?, begins]
    exact .choice begins
  · rw [unlabelled?, begins]
    exact .jump (Or.inl begins)
  · rw [unlabelled?, begins]
    exact .jump (Or.inr begins)
  · rw [unlabelled?, begins]
    dsimp only
    split
    · exact .bareReturn begins ‹_›
    · exact .value begins ‹_›
  · rw [unlabelled?, begins]
    exact .goTo begins
  · rw [unlabelled?, begins]
    exact .conditional begins
  · rw [unlabelled?, begins]
    exact .loop (Or.inl begins)
  · rw [unlabelled?, begins]
    exact .loop (Or.inr begins)
  · rw [unlabelled?, begins]
    exact .doLoop begins
  · have plain : unlabelled? f = some (.expression .semicolon f) := by
      unfold unlabelled?
      split <;> first | rfl | contradiction
    rw [plain]
    exact .expression

theorem exists_unlabelled {f : Formatter Feed} {callee : Call}
    (begins : unlabelled? f = some callee) : ∃ after, Unlabelled f (some callee) after :=
  ⟨_, begins ▸ unlabelled f⟩

/-- How a statement is read: where it goes on after its label, unless the block ends there, and what
it comes to. -/
inductive Labelled (f : Formatter Feed) : Option (Formatter Feed) → Formatter Feed → Prop
  | bare : Labelled f (some f) (unlabelledVia Formatter.statement f)
  | name (name : f.kind.isName = true) (noColon : f.advance.kind ≠ .colon) :
      Labelled f (some (f.advance.putBack.lookAt f.token))
        (unlabelledVia Formatter.statement (f.advance.putBack.lookAt f.token))
  | label (name : f.kind.isName = true) (colon : f.advance.kind = .colon) :
      Labelled f (some (f.advance.adjust .left).advance)
        (unlabelledVia Formatter.statement (f.advance.adjust .left).advance)
  | closed (name : f.kind.isName = true) (colon : f.advance.kind = .colon) :
      Labelled f none (f.advance.adjust .left).advance.endLine

theorem labelled (f : Formatter Feed) : Labelled f (afterLabel? f) f.statement := by
  rw [statement_eq]
  unfold statementVia afterLabel?
  dsimp only
  by_cases name : f.kind.isName = true
  · rw [if_pos name, if_pos (show f.token.category.isName = true from name)]
    by_cases colon : f.advance.kind = .colon
    · rw [if_pos colon, if_pos colon]
      split
      · exact .closed name colon
      · exact .label name colon
    · rw [if_neg colon, if_neg colon]
      exact .name name colon
  · rw [if_neg name, if_neg (show ¬ f.token.category.isName = true from name)]
    exact .bare

theorem exists_labelled {f start : Formatter Feed} (label : afterLabel? f = some start) :
    ∃ after, Labelled f (some start) after :=
  ⟨_, label ▸ labelled f⟩

/-- Calls with as many remaining tokens are made from a higher rank to a lower one. -/
def rank : Call → Nat
  | expression _ _ => 0
  | declaration _ => 1
  | block f => if f.kind = .leftBrace then 1 else 4
  | conditional f | loop f | doLoop f | choice f => if f.kind = .endOfFile then 4 else 1
  | statement _ => 2
  | substatement _ => 3

/-- A call has less to do than another. -/
def Below (callee caller : Call) : Prop :=
  callee.formatter.remaining < caller.formatter.remaining ∨
    callee.formatter.remaining ≤ caller.formatter.remaining ∧ callee.rank < caller.rank

namespace Below

variable {callee : Call} {f : Formatter Feed}

/-- The call without a label that a statement makes has less to do than the statement. -/
theorem unlabelled {start : Formatter Feed} (begins : unlabelled? start = some callee)
    (fewer : start.remaining ≤ f.remaining) : Below callee (statement f) := by
  have ranked : callee.formatter.remaining ≤ start.remaining ∧ callee.rank < 2 := by
    obtain ⟨_, view⟩ := exists_unlabelled begins
    cases view with
    | value => exact ⟨remaining_advance_le start, Nat.zero_lt_two⟩
    | expression => exact ⟨Nat.le_refl _, Nat.zero_lt_two⟩
    | block kind | choice kind | conditional kind | doLoop kind =>
      exact ⟨Nat.le_refl _, by simp [rank, kind]⟩
    | loop kind =>
      refine ⟨Nat.le_refl _, ?_⟩
      rcases kind with kind | kind <;> simp [rank, kind]
  exact Or.inr ⟨Nat.le_trans ranked.1 fewer, ranked.2⟩

/-- What is called from within a block has less to do than the block. -/
theorem ofBlock (fewer : callee.formatter.remaining ≤ (insideBlock f).remaining)
    (ranked : callee.rank < 4) : Below callee (block f) := by
  by_cases opens : f.kind = .leftBrace
  · have shorter : (insideBlock f).remaining < f.remaining :=
      remaining_expect_lt opens (by decide)
    exact Or.inl (Nat.lt_of_le_of_lt fewer shorter)
  · have within : (insideBlock f).remaining ≤ f.remaining := remaining_expect_le f .leftBrace
    refine Or.inr ⟨Nat.le_trans fewer within, ?_⟩
    rw [rank, if_neg opens]
    exact ranked

/-- What is called after the keyword of a statement has less to do than the statement. -/
theorem ofKeyword {caller : Call} (keyword : caller.rank = if f.kind = .endOfFile then 4 else 1)
    (state : caller.formatter = f) (fewer : callee.formatter.remaining ≤ f.advance.remaining)
    (ranked : callee.rank < 4) : Below callee caller := by
  subst state
  by_cases last : caller.formatter.kind = .endOfFile
  · rw [if_pos last] at keyword
    exact Or.inr ⟨Nat.le_trans fewer (remaining_advance_le _), keyword ▸ ranked⟩
  · exact Or.inl (Nat.lt_of_le_of_lt fewer (remaining_advance _ last))

end Below

/-- A statement goes on after its label with no more tokens than before. -/
theorem remaining_afterLabel?_le {f start : Formatter Feed} (label : afterLabel? f = some start) :
    start.remaining ≤ f.remaining := by
  obtain ⟨_, view⟩ := exists_labelled label
  cases view with
  | bare => exact Nat.le_refl _
  | name name => exact remaining_lookAt_putBack name
  | label =>
    exact Nat.le_trans (remaining_advance_le (f.advance.adjust .left)) (remaining_advance_le f)

theorem consuming_declarations :
    Consuming remaining declarationsRound
      (whileLoop (·.kind.startsDeclaration) Formatter.declaration) :=
  consuming_whileLoop fun _ starts => declaration_lt starts

theorem consuming_statements :
    Consuming remaining statementsRound (whileLoop (!·.atBlockEnd) Formatter.statement) :=
  consuming_whileLoop fun _ goes => statement_lt (by simpa using goes)

theorem consuming_sections :
    Consuming remaining sectionsRound
      (whileLoop (!·.atBlockEnd) (switchSectionVia Formatter.statement)) :=
  consuming_whileLoop fun _ goes => switchSectionVia_lt (by simpa using goes)

theorem consuming_section :
    Consuming remaining sectionRound
      (whileLoop (fun f => !f.atCase && !f.atBlockEnd) Formatter.statement) := by
  refine consuming_whileLoop fun f goes => ?_
  rw [Bool.and_eq_true, Bool.not_eq_true', Bool.not_eq_true'] at goes
  exact statement_lt goes.2

theorem remaining_insideChoice_le (f : Formatter Feed) :
    (insideChoice f).remaining ≤ f.advance.remaining :=
  Nat.le_trans (remaining_expect_le f.advance.parenthesized.endLine .leftBrace)
    (parenthesized_shrinks f.advance)

theorem remaining_sectionBody_le (f : Formatter Feed) :
    (sectionBody f).remaining ≤ f.remaining := by
  unfold sectionBody
  split
  · exact caseLabel_shrinks f
  · exact Nat.le_refl _

/-- Every call has less to do than the one that makes it. -/
theorem Makes.below {caller callee : Call} (makes : Makes caller callee) :
    Below callee caller := by
  cases makes with
  | ofStatement label begins => exact .unlabelled begins (remaining_afterLabel?_le label)
  | @blockOfSubstatement f begins =>
    have ranked : (block f).rank = 1 := if_pos begins
    exact Or.inr ⟨Nat.le_refl _, ranked ▸ (by decide : 1 < 3)⟩
  | statementOfSubstatement => exact Or.inr ⟨Nat.le_refl _, (by decide : 2 < 3)⟩
  | declarationOfBlock reaches =>
    exact .ofBlock (consuming_declarations.remaining_le reaches) (by decide : 1 < 4)
  | @statementOfBlock f later reaches =>
    have fewer := consuming_statements.remaining_le reaches
    exact .ofBlock (Nat.le_trans fewer (blockDeclarations_shrinks _)) (by decide : 2 < 4)
  | @conditionOfConditional f =>
    exact .ofKeyword rfl rfl (remaining_advance_le f.advance) (by decide : 0 < 4)
  | @thenOfConditional f =>
    exact .ofKeyword rfl rfl (parenthesized_shrinks f.advance) (by decide : 3 < 4)
  | @againOfConditional f goes again =>
    have first := controlledVia_le_advance statement_shrinks f
    have next := remaining_advance_le (controlledVia Formatter.statement f)
    have ranked : (conditional (controlledVia Formatter.statement f).advance).rank = 1 :=
      if_neg (by simp [again])
    exact .ofKeyword rfl rfl (Nat.le_trans next first) (ranked ▸ (by decide : 1 < 4))
  | @elseOfConditional f =>
    have first := controlledVia_le_advance statement_shrinks f
    have next := remaining_advance_le (controlledVia Formatter.statement f)
    exact .ofKeyword rfl rfl (Nat.le_trans next first) (by decide : 3 < 4)
  | @conditionOfLoop f =>
    exact .ofKeyword rfl rfl (remaining_advance_le f.advance) (by decide : 0 < 4)
  | @bodyOfLoop f => exact .ofKeyword rfl rfl (parenthesized_shrinks f.advance) (by decide : 3 < 4)
  | bodyOfDoLoop => exact .ofKeyword rfl rfl (Nat.le_refl _) (by decide : 3 < 4)
  | @conditionOfDoLoop f after body =>
    have inside := substatementVia_shrinks statement_shrinks f.advance.endLine
    have keyword := remaining_expect_le f.advance.endLine.substatement .kwWhile
    have next := remaining_advance_le after
    rw [← body] at keyword
    exact .ofKeyword rfl rfl (Nat.le_trans next (Nat.le_trans keyword inside)) (by decide : 0 < 4)
  | @conditionOfChoice f =>
    exact .ofKeyword rfl rfl (remaining_advance_le f.advance) (by decide : 0 < 4)
  | @labelOfChoice f later reaches =>
    have fewer := consuming_sections.remaining_le reaches
    exact .ofKeyword rfl rfl (Nat.le_trans fewer (remaining_insideChoice_le f)) (by decide : 0 < 4)
  | @statementOfChoice f place later reaches goes inside =>
    have fewer := consuming_sections.remaining_le reaches
    have within := consuming_section.remaining_le inside
    have body := remaining_sectionBody_le place
    have first := remaining_insideChoice_le f
    exact .ofKeyword rfl rfl (Nat.le_trans within (Nat.le_trans body (Nat.le_trans fewer first)))
      (by decide : 2 < 4)
  | initializerOfDeclaration reaches =>
    exact Or.inr ⟨consuming_declarationLoop.remaining_le reaches, Nat.zero_lt_one⟩
  | @innerOfExpression terminator previous braces f later reaches goes opens =>
    have fewer := (consuming_expressionLoop terminator).remaining_le reaches
    have called := remaining_advance ((later.markExpression previous).markCall previous)
      (by simp [opens])
    simp only [remaining_markCall, remaining_markExpression] at called
    exact Or.inl (Nat.lt_of_lt_of_le called fewer)

theorem rank_lt (call : Call) : call.rank < 5 := by
  cases call <;> simp only [rank] <;> first | decide | split <;> decide

/-- No chain of calls is infinite. -/
theorem wellFounded_makes : WellFounded fun callee caller => Makes caller callee := by
  have work {callee caller : Call} (makes : Makes caller callee) :
      5 * callee.formatter.remaining + callee.rank <
        5 * caller.formatter.remaining + caller.rank := by
    have ranked := rank_lt callee
    rcases makes.below with fewer | ⟨noMore, lower⟩ <;> omega
  exact Subrelation.wf work
    (InvImage.wf (fun call : Call => 5 * call.formatter.remaining + call.rank) Nat.lt_wfRel.wf)

/-! ## No other calls are made -/

/-- What the call comes to if the statements inside are read in another way. -/
def via (read : Formatter Feed → Formatter Feed) : Call → Formatter Feed
  | statement f => statementVia read f
  | substatement f => substatementVia read f
  | block f => compoundVia read f
  | conditional f => ifVia read f.budget f
  | loop f => controlledVia read f
  | doLoop f => doVia read f
  | choice f => switchVia read f
  | declaration f => f.declaration
  | expression terminator f => f.expression terminator

/-- The call has a statement read from the given state, itself or through calls that read parts of
a statement. -/
inductive Consults : Call → Formatter Feed → Prop
  | itself {call : Call} {f : Formatter Feed} (makes : Makes call (statement f)) : Consults call f
  | through {call callee : Call} {f : Formatter Feed} (makes : Makes call callee)
      (part : ∀ g, callee ≠ statement g) (consults : Consults callee f) : Consults call f

/-- Wherever the call has a statement read, it is read as given. -/
def Agrees (call : Call) (read : Formatter Feed → Formatter Feed) : Prop :=
  ∀ f, Consults call f → read f = f.statement

/-- A loop depends on its steps only where it comes to. -/
theorem repeatWhile_eq_of_reaches {condition : Formatter Feed → Bool}
    {step other : Formatter Feed → Formatter Feed} {budget : Nat} {f : Formatter Feed}
    (agree : ∀ later, Reaches (whileRound condition step) f later → condition later = true →
      other later = step later) :
    repeatWhile condition other budget f = repeatWhile condition step budget f := by
  induction budget generalizing f with
  | zero => rfl
  | succ budget ih =>
    simp only [repeatWhile]
    split
    · rename_i holds
      have goes : whileRound condition step f = .more (step f) := if_pos holds
      rw [agree f (.here f) holds]
      exact ih fun later reaches => agree later (.more goes reaches)
    · rfl

/-- What stands after an `else` has fewer tokens before it than the `if`. -/
theorem remaining_advance_of_else {f : Formatter Feed}
    (goes : (controlledVia Formatter.statement f).kind = .kwElse) :
    (controlledVia Formatter.statement f).advance.remaining < f.remaining := by
  have next := remaining_advance (controlledVia Formatter.statement f) (by simp [goes])
  exact Nat.lt_of_lt_of_le next (controlledVia_shrinks statement_shrinks f)

/-- A chain of conditions does not depend on its budget, if that is above the number of remaining
tokens. -/
theorem ifVia_eq_of_lt {budget other : Nat} {f : Formatter Feed} (enough : f.remaining < budget)
    (otherEnough : f.remaining < other) :
    ifVia Formatter.statement budget f = ifVia Formatter.statement other f := by
  induction budget generalizing f other with
  | zero => exact absurd enough (Nat.not_lt_zero _)
  | succ budget ih =>
    cases other with
    | zero => exact absurd otherEnough (Nat.not_lt_zero _)
    | succ other =>
      simp only [ifVia]
      split
      · rename_i goes
        have fewer := remaining_advance_of_else goes
        split
        · exact ih (by omega) (by omega)
        · rfl
      · rfl

section Agreement

variable {read : Formatter Feed → Formatter Feed} {f : Formatter Feed}

theorem Agrees.callee {caller callee : Call} (agrees : caller.Agrees read)
    (makes : Makes caller callee) (part : ∀ g, callee ≠ statement g) : callee.Agrees read :=
  fun g consults => agrees g (.through makes part consults)

theorem via_block (agrees : (block f).Agrees read) :
    compoundVia read f = f.compoundStatement := by
  have body : statementsVia read (insideBlock f).blockDeclarations =
      statementsVia Formatter.statement (insideBlock f).blockDeclarations :=
    repeatWhile_eq_of_reaches fun later reaches goes =>
      agrees later (.itself (.statementOfBlock reaches (by simpa using goes)))
  exact congrArg (fun after => (after.endLine.unindent.expect .rightBrace).endLine) body

theorem via_substatement (agrees : (substatement f).Agrees read) :
    substatementVia read f = f.substatement := by
  unfold substatementVia Formatter.substatement substatementVia
  by_cases begins : f.kind = .leftBrace
  · rw [if_pos begins, if_pos begins]
    exact via_block (agrees.callee (.blockOfSubstatement begins) (by simp))
  · rw [if_neg begins, if_neg begins, agrees f.indent (.itself (.statementOfSubstatement begins))]

theorem via_loop (agrees : (substatement f.advance.parenthesized.endLine).Agrees read) :
    controlledVia read f = f.loopStatement :=
  via_substatement agrees

theorem via_doLoop (agrees : (doLoop f).Agrees read) : doVia read f = f.doStatement := by
  unfold doVia doStatement doVia
  rw [via_substatement (agrees.callee .bodyOfDoLoop (by simp))]
  rfl

theorem via_conditional {budget : Nat} (enough : f.remaining < budget)
    (agrees : (conditional f).Agrees read) : ifVia read budget f = f.ifStatement := by
  induction budget generalizing f with
  | zero => exact absurd enough (Nat.not_lt_zero _)
  | succ budget ih =>
    have first : controlledVia read f = controlledVia Formatter.statement f :=
      via_loop (agrees.callee .thenOfConditional (by simp))
    simp only [ifStatement, Formatter.budget, ifVia]
    rw [first]
    split
    · rename_i goes
      have fewer := remaining_advance_of_else goes
      split
      · rename_i again
        rw [ih (by omega) (agrees.callee (.againOfConditional goes again) (by simp))]
        exact ifVia_eq_of_lt (Nat.lt_succ_self _) fewer
      · rename_i other
        exact via_substatement (agrees.callee (.elseOfConditional goes other) (by simp))
    · rfl

theorem via_choice (agrees : (choice f).Agrees read) : switchVia read f = f.switchStatement := by
  have body : repeatWhile (!·.atBlockEnd) (switchSectionVia read) (insideChoice f).budget
        (insideChoice f) =
      repeatWhile (!·.atBlockEnd) (switchSectionVia Formatter.statement) (insideChoice f).budget
        (insideChoice f) := by
    refine repeatWhile_eq_of_reaches fun place reaches goes => ?_
    have inside : repeatWhile (fun g => !g.atCase && !g.atBlockEnd) read (sectionBody place).budget
          (sectionBody place) =
        repeatWhile (fun g => !g.atCase && !g.atBlockEnd) Formatter.statement
          (sectionBody place).budget (sectionBody place) :=
      repeatWhile_eq_of_reaches fun later within continues =>
        agrees later (.itself
          (.statementOfChoice reaches (by simpa using goes) within continues))
    exact congrArg (fun after => after.endLine.unindent) inside
  exact congrArg (fun after => (after.unindent.expect .rightBrace).endLine) body

theorem via_unlabelled {start : Formatter Feed}
    (agrees : ∀ callee, unlabelled? start = some callee → callee.Agrees read) :
    unlabelledVia read start = unlabelledVia Formatter.statement start := by
  unfold unlabelledVia
  split <;> rename_i begins
  · exact via_block (agrees _ (by simp [unlabelled?, begins]))
  · exact via_choice (agrees _ (by simp [unlabelled?, begins]))
  · rfl
  · rfl
  · rfl
  · rfl
  · exact via_conditional (Nat.lt_succ_self _) (agrees _ (by simp [unlabelled?, begins]))
  · refine via_loop ((agrees (loop start) ?_).callee .bodyOfLoop (by simp))
    simp [unlabelled?, begins]
  · refine via_loop ((agrees (loop start) ?_).callee .bodyOfLoop (by simp))
    simp [unlabelled?, begins]
  · exact via_doLoop (agrees _ (by simp [unlabelled?, begins]))
  · rfl

theorem unlabelled?_ne_statement {start : Formatter Feed} {callee : Call}
    (begins : unlabelled? start = some callee) (g : Formatter Feed) : callee ≠ statement g := by
  rintro rfl
  obtain ⟨_, view⟩ := exists_unlabelled begins
  cases view

theorem via_statement (agrees : (statement f).Agrees read) :
    statementVia read f = f.statement := by
  have start {g : Formatter Feed} (label : afterLabel? f = some g) :
      unlabelledVia read g = unlabelledVia Formatter.statement g :=
    via_unlabelled fun callee begins =>
      agrees.callee (.ofStatement label begins) (unlabelled?_ne_statement begins)
  rw [statement_eq]
  simp only [afterLabel?] at start
  unfold statementVia
  dsimp only
  split
  · rename_i name
    change f.kind.isName = true at name
    rw [if_pos name] at start
    split
    · rename_i colon
      rw [if_pos colon] at start
      split
      · rfl
      · rename_i goes
        rw [if_neg goes] at start
        exact start rfl
    · rename_i noColon
      rw [if_neg noColon] at start
      exact start rfl
  · rename_i noName
    change ¬ f.kind.isName = true at noName
    rw [if_neg noName] at start
    exact start rfl

end Agreement

/-- What a call comes to depends on the reading of statements only where the calls that it makes
have one read. -/
theorem via_eq_result (call : Call) {read : Formatter Feed → Formatter Feed}
    (agrees : call.Agrees read) : call.via read = call.result := by
  cases call with
  | statement f => exact via_statement agrees
  | substatement f => exact via_substatement agrees
  | block f => exact via_block agrees
  | conditional f => exact via_conditional (Nat.lt_succ_self _) agrees
  | loop f => exact via_loop (agrees.callee .bodyOfLoop (by simp))
  | doLoop f => exact via_doLoop agrees
  | choice f => exact via_choice agrees
  | declaration f => rfl
  | expression terminator f => rfl

end Call

end CListing.Formatter
