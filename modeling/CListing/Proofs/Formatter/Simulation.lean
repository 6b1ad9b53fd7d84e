import CListing.Proofs.Formatter.Progress

/-!
# Relations that the walk keeps

Two walks along feeds that agree on the category of the token they look at and on the number of
tokens that remain take the same course. So a relation that the elementary steps keep is kept by
every recognizer, up to the reading of a whole file. The elementary steps are few, and no loop is
given up along a feed, so giving up is none of them. With equality of the two walks and a property
as the relation, the same says that the property is an invariant of the walk.
-/

namespace CListing

/-- The recognizers give these commands without a token. -/
def Command.isSilent : Command → Bool
  | .indent | .unindent | .endLine _ | .skipLine | .endPage => true
  | _ => false

/-- Inside declarations and statements the recognizers give no other commands without a token. -/
def Command.isInner : Command → Bool
  | .indent | .unindent | .endLine false | .skipLine => true
  | _ => false

theorem Command.isSilent_of_isInner {command : Command} (inner : command.isInner = true) :
    command.isSilent = true := by
  cases command <;> first | rfl | contradiction

namespace Formatter

/-- At a token of these categories the recognizers let it join what stands before it. -/
def mayJoinLeft : Category → Bool
  | .leftParen | .colon | .rightBrace | .endOfFile => true
  | _ => false

/-- The relation is kept by the elementary steps inside declarations and statements. -/
structure BodySimulation (R : Formatter Feed → Formatter Feed → Prop) : Prop where
  kind {f g} (related : R f g) : f.kind = g.kind
  remaining {f g} (related : R f g) : f.remaining = g.remaining
  performInner {f g command} (related : R f g) (inner : command.isInner = true) :
    R (f.perform command) (g.perform command)
  reportMissing {f g} (required : Category) (related : R f g) :
    R (f.reportMissing required) (g.reportMissing required)
  markDeclaration {f g} (related : R f g) : R f.markDeclaration g.markDeclaration
  markExpression {f g} (previous : Category) (related : R f g) :
    R (f.markExpression previous) (g.markExpression previous)
  joinLeft {f g} (related : R f g) (joins : mayJoinLeft f.kind = true) :
    R (f.adjust .left) (g.adjust .left)
  advance {f g} (related : R f g) : R f.advance g.advance
  lookAgain {f g} (related : R f g) (name : f.kind.isName = true) :
    R (f.advance.putBack.lookAt f.token) (g.advance.putBack.lookAt g.token)
  countOpened {f g} (related : R f g) :
    R { f with bodiesOpened := f.bodiesOpened + 1 } { g with bodiesOpened := g.bodiesOpened + 1 }
  countClosed {f g} (related : R f g) :
    R { f with bodiesClosed := f.bodiesClosed + 1 } { g with bodiesClosed := g.bodiesClosed + 1 }

/-- The relation is kept by all elementary steps, those between functions included. -/
structure Simulation (R : Formatter Feed → Formatter Feed → Prop) : Prop extends
    BodySimulation R where
  perform {f g command} (related : R f g) (silent : command.isSilent = true) :
    R (f.perform command) (g.perform command)
  performInner related inner := perform related (Command.isSilent_of_isInner inner)
  countFunction {f g} (related : R f g) :
    R { f with functions := f.functions + 1 } { g with functions := g.functions + 1 }

/-- A loop whose rounds consume tokens is kept by the relation if its rounds are. -/
theorem repeatWhile_related {R : Formatter Feed → Formatter Feed → Prop}
    {condition : Formatter Feed → Bool} {step : Formatter Feed → Formatter Feed}
    {f g : Formatter Feed}
    (reads : ∀ {f g}, R f g → condition f = condition g)
    (progress : ∀ f, condition f = true → (step f).remaining < f.remaining) {limit : Nat}
    (keeps : ∀ {f g}, R f g → condition f = true → f.remaining ≤ limit → R (step f) (step g))
    {budget : Nat} (related : R f g) (within : f.remaining ≤ limit)
    (enough : f.remaining < budget) :
    R (repeatWhile condition step budget f)
      (repeatWhile condition step budget g) := by
  induction budget generalizing f g with
  | zero => exact absurd enough (Nat.not_lt_zero _)
  | succ budget ih =>
    simp only [repeatWhile]
    rw [← reads related]
    split
    · rename_i goes
      have fewer := progress f goes
      exact ih (keeps related goes within) (by omega) (by omega)
    · exact related

namespace BodySimulation

variable {R : Formatter Feed → Formatter Feed → Prop} (sim : BodySimulation R)
variable {f g : Formatter Feed}
include sim

theorem endLine (related : R f g) : R f.endLine g.endLine :=
  sim.performInner related rfl

theorem indent (related : R f g) : R f.indent g.indent :=
  sim.performInner related rfl

theorem unindent (related : R f g) : R f.unindent g.unindent :=
  sim.performInner related rfl

theorem budget (related : R f g) : f.budget = g.budget :=
  congrArg (· + 1) (sim.remaining related)

theorem atBlockEnd (related : R f g) : f.atBlockEnd = g.atBlockEnd := by
  rw [Formatter.atBlockEnd, Formatter.atBlockEnd, sim.kind related]

theorem atCase (related : R f g) : f.atCase = g.atCase := by
  rw [Formatter.atCase, Formatter.atCase, sim.kind related]

theorem expect (required : Category) (related : R f g) :
    R (f.expect required) (g.expect required) := by
  unfold Formatter.expect
  rw [← sim.kind related]
  split
  · exact sim.advance related
  · exact sim.reportMissing required related

theorem markCall (previous : Category) (related : R f g) (paren : f.kind = .leftParen) :
    R (f.markCall previous) (g.markCall previous) := by
  unfold Formatter.markCall
  split
  · apply sim.joinLeft related
    rw [paren]
    rfl
  · exact related

/-! ## Expressions -/

theorem expressionFrom {terminator previous : Category} {braces budget : Nat} (related : R f g)
    (enough : f.remaining < budget) :
    R (Formatter.expressionFrom terminator previous braces budget f)
      (Formatter.expressionFrom terminator previous braces budget g) := by
  induction budget generalizing terminator previous braces f g with
  | zero => exact absurd enough (Nat.not_lt_zero _)
  | succ budget ih =>
    have same := sim.kind related
    by_cases stop : (f.kind = terminator || f.kind = .endOfFile) = true
    · simp only [Formatter.expressionFrom]
      rw [if_pos stop, if_pos (by rwa [← same])]
      exact related
    · have notEnd : f.kind ≠ .endOfFile := by
        intro last
        simp [last] at stop
      have marked := sim.markExpression previous related
      have markedKind := sim.kind marked
      have next : (f.markExpression previous).advance.remaining < f.remaining :=
        remaining_advance (f.markExpression previous) notEnd
      have otherStop : ¬ (g.kind = terminator || g.kind = .endOfFile) = true := by rwa [← same]
      simp only [Formatter.expressionFrom]
      rw [if_neg stop, if_neg otherStop, ← markedKind]
      split
      · rename_i paren
        have called := sim.advance (sim.markCall previous marked paren)
        have fewer := remaining_advance ((f.markExpression previous).markCall previous)
          (by simpa using notEnd)
        simp only [remaining_markCall, remaining_markExpression] at fewer
        have inner := @ih _ _ .rightParen .foreign 0 called (by omega)
        have shrinks := expressionFrom_shrinks .rightParen .foreign 0 budget
          ((f.markExpression previous).markCall previous).advance
        rw [← sim.kind inner]
        split
        · have after := remaining_advance_le (Formatter.expressionFrom .rightParen .foreign 0 budget
            ((f.markExpression previous).markCall previous).advance)
          exact ih (sim.advance inner) (by omega)
        · exact sim.reportMissing .rightParen inner
      · exact ih (sim.advance marked) (by omega)
      · exact marked
      · exact ih (sim.advance marked) (by omega)
      · exact ih (sim.advance marked) (by omega)

theorem expression (terminator : Category) (related : R f g) :
    R (f.expression terminator) (g.expression terminator) := by
  unfold Formatter.expression
  rw [← sim.budget related]
  exact sim.expressionFrom related (Nat.lt_succ_self _)

theorem parenthesized (related : R f g) : R f.parenthesized g.parenthesized := by
  unfold Formatter.parenthesized
  rw [← sim.kind related]
  split
  · exact sim.expect .rightParen (sim.expression .rightParen (sim.advance related))
  · exact sim.reportMissing .leftParen related

/-! ## Declarations -/

theorem openBrace (related : R f g) : R f.openBrace g.openBrace :=
  sim.countOpened (sim.indent (sim.endLine (sim.advance (sim.endLine related))))

theorem closeBrace (related : R f g) : R f.closeBrace g.closeBrace :=
  sim.countClosed (sim.advance (sim.unindent (sim.endLine related)))

theorem endDeclaration (related : R f g) : R f.endDeclaration g.endDeclaration :=
  sim.endLine (sim.expect .semicolon related)

theorem declarationFrom {braces budget : Nat} (related : R f g) (enough : f.remaining < budget) :
    R (Formatter.declarationFrom braces budget f) (Formatter.declarationFrom braces budget g) := by
  induction budget generalizing braces f g with
  | zero => exact absurd enough (Nat.not_lt_zero _)
  | succ budget ih =>
    have same := sim.kind related
    by_cases stop : ((braces = 0 && f.kind = .semicolon) || f.kind = .endOfFile) = true
    · simp only [Formatter.declarationFrom]
      rw [if_pos stop, if_pos (by rwa [← same])]
      exact related
    · have notEnd : f.kind ≠ .endOfFile := by
        intro last
        simp [last] at stop
      have marked := sim.markDeclaration related
      have next : f.markDeclaration.advance.remaining < f.remaining :=
        remaining_advance f.markDeclaration notEnd
      have opened : f.markDeclaration.openBrace.remaining < f.remaining :=
        @openBrace_lt f.markDeclaration notEnd
      have closed : f.markDeclaration.closeBrace.remaining < f.remaining :=
        @closeBrace_lt f.markDeclaration notEnd
      have otherStop : ¬ ((braces = 0 && g.kind = .semicolon) || g.kind = .endOfFile) = true := by
        rwa [← same]
      simp only [Formatter.declarationFrom]
      rw [if_neg stop, if_neg otherStop, ← sim.kind marked]
      split
      · exact ih (sim.openBrace marked) (by omega)
      · exact marked
      · exact ih (sim.closeBrace marked) (by omega)
      · rename_i assigns
        have initial := @initializer_lt f.markDeclaration assigns
        rw [remaining_markDeclaration] at initial
        exact ih (sim.expression .semicolon marked) (by omega)
      · exact ih (sim.endLine (sim.advance marked)) (by simpa using by omega)
      · exact ih (sim.advance marked) (by omega)

theorem declaration (related : R f g) : R f.declaration g.declaration := by
  unfold Formatter.declaration
  rw [← sim.budget related]
  exact sim.endDeclaration (sim.declarationFrom related (Nat.lt_succ_self _))

theorem declarations (related : R f g) : R f.declarations g.declarations := by
  unfold Formatter.declarations
  rw [← sim.budget related]
  apply repeatWhile_related _ _ _ related (Nat.le_refl _) (Nat.lt_succ_self _)
  · intro f g related
    rw [sim.kind related]
  · intro f starts
    exact declaration_lt starts
  · intro f g related _ _
    exact sim.declaration related

theorem externalFrom {braces : Int} {budget : Nat} (related : R f g)
    (enough : f.remaining < budget) :
    (Formatter.externalFrom braces budget f).1 = (Formatter.externalFrom braces budget g).1 ∧
      R (Formatter.externalFrom braces budget f).2 (Formatter.externalFrom braces budget g).2 := by
  induction budget generalizing braces f g with
  | zero => exact absurd enough (Nat.not_lt_zero _)
  | succ budget ih =>
    have same := sim.kind related
    by_cases stop : ((braces ≤ 0 && f.kind = .semicolon) || f.kind = .endOfFile) = true
    · simp only [Formatter.externalFrom]
      rw [if_pos stop, if_pos (by rwa [← same])]
      exact ⟨rfl, related⟩
    · have notEnd : f.kind ≠ .endOfFile := by
        intro last
        simp [last] at stop
      have marked := sim.markDeclaration related
      have next : f.markDeclaration.advance.remaining < f.remaining :=
        remaining_advance f.markDeclaration notEnd
      have opened : f.markDeclaration.openBrace.remaining < f.remaining :=
        @openBrace_lt f.markDeclaration notEnd
      have closed : f.markDeclaration.closeBrace.remaining < f.remaining :=
        @closeBrace_lt f.markDeclaration notEnd
      have otherStop : ¬ ((braces ≤ 0 && g.kind = .semicolon) || g.kind = .endOfFile) = true := by
        rwa [← same]
      simp only [Formatter.externalFrom]
      rw [if_neg stop, if_neg otherStop, ← sim.kind marked]
      split
      · exact ih (sim.openBrace marked) (by omega)
      · exact ih (sim.closeBrace marked) (by omega)
      · rw [← sim.kind (sim.advance marked)]
        split
        · exact ⟨rfl, sim.advance marked⟩
        · exact ih (sim.advance marked) (by omega)
      · rename_i assigns
        have initial := @initializer_lt f.markDeclaration assigns
        rw [remaining_markDeclaration] at initial
        exact ih (sim.expression .semicolon marked) (by omega)
      · exact ih (sim.endLine (sim.advance marked)) (by simpa using by omega)
      · exact ih (sim.advance marked) (by omega)

theorem externalDeclaration (related : R f g) :
    f.externalDeclaration.1 = g.externalDeclaration.1 ∧
      R f.externalDeclaration.2 g.externalDeclaration.2 := by
  have read := @BodySimulation.externalFrom _ sim f g 0 _ related (Nat.lt_succ_self _)
  unfold Formatter.externalDeclaration
  rw [← sim.budget related]
  rw [show f.remaining.succ = f.budget from rfl] at read
  generalize Formatter.externalFrom 0 f.budget f = first at read ⊢
  generalize Formatter.externalFrom 0 f.budget g = second at read ⊢
  obtain ⟨level, first⟩ := first
  obtain ⟨other, second⟩ := second
  obtain ⟨rfl, read⟩ := read
  cases level with
  | header => exact ⟨rfl, read⟩
  | declaration => exact ⟨rfl, sim.endDeclaration read⟩

/-! ## Statements -/

theorem endStatement (related : R f g) : R f.endStatement g.endStatement :=
  sim.endLine (sim.expect .semicolon related)

theorem expressionStatement (related : R f g) : R f.expressionStatement g.expressionStatement :=
  sim.endStatement (sim.expression .semicolon related)

theorem jumpStatement (related : R f g) : R f.jumpStatement g.jumpStatement :=
  sim.endStatement (sim.advance related)

theorem returnStatement (related : R f g) : R f.returnStatement g.returnStatement := by
  have value := sim.advance related
  unfold Formatter.returnStatement
  dsimp only
  rw [← sim.kind value]
  split
  · exact sim.endStatement value
  · exact sim.endStatement (sim.expression .semicolon value)

theorem gotoStatement (related : R f g) : R f.gotoStatement g.gotoStatement := by
  have label := sim.advance related
  unfold Formatter.gotoStatement
  dsimp only
  rw [← sim.kind label]
  split
  · exact sim.endStatement (sim.advance label)
  · exact sim.endStatement (sim.expect .identifier label)

theorem caseLabel (related : R f g) : R f.caseLabel g.caseLabel := by
  have joins : mayJoinLeft (f.expression .colon).kind = true := by
    rcases @stops_expression f .colon with colon | last | brace
    · rw [colon]
      rfl
    · rw [last]
      rfl
    · rw [brace]
      rfl
  exact sim.endLine (sim.expect .colon (sim.joinLeft (sim.expression .colon related) joins))

theorem blockDeclarations (related : R f g) : R f.blockDeclarations g.blockDeclarations := by
  unfold Formatter.blockDeclarations
  rw [← sim.kind related]
  split
  · exact sim.performInner (sim.declarations related) rfl
  · exact related

end BodySimulation

/-- The relation is kept by the reading of statements before which fewer tokens remain. -/
def KeepsBelow (R : Formatter Feed → Formatter Feed → Prop) (limit : Nat) : Prop :=
  ∀ {f g : Formatter Feed}, R f g → f.remaining < limit → R f.statement g.statement

namespace BodySimulation

variable {R : Formatter Feed → Formatter Feed → Prop} (sim : BodySimulation R)
variable {limit : Nat} (keeps : KeepsBelow R limit) {f g : Formatter Feed}
include sim keeps

theorem statementsVia (related : R f g) (within : f.remaining < limit) :
    R (Formatter.statementsVia statement f) (Formatter.statementsVia statement g) := by
  unfold Formatter.statementsVia
  rw [← sim.budget related]
  apply repeatWhile_related _ _ _ related (Nat.le_refl _) (Nat.lt_succ_self _)
  · intro f g related
    rw [sim.atBlockEnd related]
  · intro f goes
    exact statement_lt (by simpa using goes)
  · intro f g related _ bound
    exact keeps related (Nat.lt_of_le_of_lt bound within)

theorem compoundVia (related : R f g) (within : (f.expect .leftBrace).remaining < limit) :
    R (Formatter.compoundVia statement f) (Formatter.compoundVia statement g) := by
  have opened := sim.expect .leftBrace related
  have inside := sim.blockDeclarations (sim.indent (sim.endLine opened))
  have fewer := blockDeclarations_shrinks (f.expect .leftBrace).endLine.indent
  have body := sim.statementsVia keeps inside (Nat.lt_of_le_of_lt fewer within)
  exact sim.endLine (sim.expect .rightBrace (sim.unindent (sim.endLine body)))

theorem substatementVia (related : R f g) (within : f.remaining < limit) :
    R (Formatter.substatementVia statement f) (Formatter.substatementVia statement g) := by
  unfold Formatter.substatementVia
  rw [← sim.kind related]
  split
  · exact sim.compoundVia keeps related (Nat.lt_of_le_of_lt (remaining_expect_le _ _) within)
  · exact sim.unindent (keeps (sim.indent related) within)

theorem controlledVia (related : R f g) (within : f.advance.remaining < limit) :
    R (Formatter.controlledVia statement f) (Formatter.controlledVia statement g) := by
  have condition := sim.endLine (sim.parenthesized (sim.advance related))
  exact sim.substatementVia keeps condition
    (Nat.lt_of_le_of_lt (parenthesized_shrinks _) within)

theorem ifVia {budget : Nat} (related : R f g) (begins : f.kind = .kwIf)
    (within : f.advance.remaining < limit) (enough : f.remaining < budget) :
    R (Formatter.ifVia statement budget f) (Formatter.ifVia statement budget g) := by
  induction budget generalizing f g with
  | zero => exact absurd enough (Nat.not_lt_zero _)
  | succ budget ih =>
    have first := sim.controlledVia keeps related within
    have fewer := controlledVia_le_advance statement_shrinks f
    have shorter := remaining_advance f (by simp [begins])
    simp only [Formatter.ifVia]
    rw [← sim.kind first]
    split
    · have second := sim.advance first
      have after := remaining_advance_le (Formatter.controlledVia statement f)
      rw [← sim.kind second]
      split
      · rename_i again
        have third := remaining_advance (Formatter.controlledVia statement f).advance
          (by simp [again])
        exact ih second again (by omega) (by omega)
      · exact sim.substatementVia keeps (sim.endLine second) (by rw [remaining_endLine]; omega)
    · exact first

theorem doVia (related : R f g) (within : f.advance.remaining < limit) :
    R (Formatter.doVia statement f) (Formatter.doVia statement g) := by
  have body := sim.substatementVia keeps (sim.endLine (sim.advance related)) within
  exact sim.endStatement (sim.parenthesized (sim.expect .kwWhile body))

theorem caseBodyVia (related : R f g) (within : f.remaining < limit) :
    R (Formatter.caseBodyVia statement f) (Formatter.caseBodyVia statement g) := by
  have body := sim.indent related
  unfold Formatter.caseBodyVia
  dsimp only
  rw [← sim.budget body]
  apply sim.unindent
  apply sim.endLine
  apply repeatWhile_related _ _ _ body (Nat.le_refl _) (Nat.lt_succ_self _)
  · intro f g related
    rw [sim.atCase related, sim.atBlockEnd related]
  · intro f goes
    rw [Bool.and_eq_true, Bool.not_eq_true', Bool.not_eq_true'] at goes
    exact statement_lt goes.2
  · intro f g related _ bound
    exact keeps related (Nat.lt_of_le_of_lt bound within)

theorem switchSectionVia (related : R f g) (within : f.remaining < limit) :
    R (Formatter.switchSectionVia statement f) (Formatter.switchSectionVia statement g) := by
  unfold Formatter.switchSectionVia
  rw [← sim.atCase related]
  apply sim.caseBodyVia keeps
  · split
    · exact sim.caseLabel related
    · exact related
  · split
    · exact Nat.lt_of_le_of_lt (caseLabel_shrinks f) within
    · exact within

theorem switchVia (related : R f g) (within : f.advance.remaining < limit) :
    R (Formatter.switchVia statement f) (Formatter.switchVia statement g) := by
  have condition := sim.endLine (sim.parenthesized (sim.advance related))
  have inside := sim.indent (sim.endLine (sim.expect .leftBrace condition))
  have fewer := remaining_expect_le f.advance.parenthesized.endLine .leftBrace
  have shrinks := parenthesized_shrinks f.advance
  simp only [remaining_endLine] at fewer
  unfold Formatter.switchVia
  dsimp only
  rw [← sim.budget inside]
  apply sim.endLine
  apply sim.expect
  apply sim.unindent
  apply repeatWhile_related _ _ _ inside (Nat.le_refl _) (Nat.lt_succ_self _)
  · intro f g related
    rw [sim.atBlockEnd related]
  · intro f goes
    exact switchSectionVia_lt (by simpa using goes)
  · intro f g related _ bound
    simp only [remaining_indent, remaining_endLine] at bound
    exact sim.switchSectionVia keeps related (by omega)

theorem unlabelledVia (related : R f g) (within : f.remaining ≤ limit) :
    R (Formatter.unlabelledVia statement f) (Formatter.unlabelledVia statement g) := by
  have below (notEnd : f.kind ≠ .endOfFile) : f.advance.remaining < limit :=
    Nat.lt_of_lt_of_le (remaining_advance f notEnd) within
  unfold Formatter.unlabelledVia
  rw [← sim.kind related]
  split <;> rename_i begins
  · exact sim.compoundVia keeps related
      (Nat.lt_of_lt_of_le (remaining_expect_lt begins (by decide)) within)
  · exact sim.switchVia keeps related (below (by simp [begins]))
  · exact sim.jumpStatement related
  · exact sim.jumpStatement related
  · exact sim.returnStatement related
  · exact sim.gotoStatement related
  · rw [← sim.budget related]
    exact sim.ifVia keeps related begins (below (by simp [begins])) (Nat.lt_succ_self _)
  · exact sim.controlledVia keeps related (below (by simp [begins]))
  · exact sim.controlledVia keeps related (below (by simp [begins]))
  · exact sim.doVia keeps related (below (by simp [begins]))
  · exact sim.expressionStatement related

theorem statementVia (related : R f g) (within : f.remaining ≤ limit) :
    R (Formatter.statementVia statement f) (Formatter.statementVia statement g) := by
  have next := sim.advance related
  have sameName : g.token.category.isName = f.token.category.isName :=
    congrArg Category.isName (sim.kind related).symm
  unfold Formatter.statementVia
  dsimp only
  rw [sameName, ← sim.kind next]
  split
  · rename_i name
    split
    · rename_i colon
      have joined := sim.joinLeft next (by rw [colon]; rfl)
      have labelled := sim.advance joined
      have first := remaining_advance_le f
      have second := remaining_advance_le (f.advance.adjust .left)
      rw [← sim.kind labelled]
      split
      · exact sim.endLine labelled
      · exact sim.unlabelledVia keeps labelled
          (Nat.le_trans second (Nat.le_trans first within))
    · exact sim.unlabelledVia keeps (sim.lookAgain related name)
        (Nat.le_trans (remaining_lookAt_putBack name) within)
  · exact sim.unlabelledVia keeps related within

end BodySimulation

namespace BodySimulation

variable {R : Formatter Feed → Formatter Feed → Prop} (sim : BodySimulation R)
variable {f g : Formatter Feed}
include sim

theorem keepsBelow (limit : Nat) : KeepsBelow R limit := by
  induction limit with
  | zero =>
    intro f g _ within
    exact absurd within (Nat.not_lt_zero _)
  | succ limit ih =>
    intro f g related within
    rw [statement_eq, statement_eq]
    exact sim.statementVia ih related (Nat.le_of_lt_succ within)

theorem statement (related : R f g) : R f.statement g.statement :=
  sim.keepsBelow (f.remaining + 1) related (Nat.lt_succ_self _)

theorem compoundStatement (related : R f g) : R f.compoundStatement g.compoundStatement :=
  sim.compoundVia (sim.keepsBelow ((f.expect .leftBrace).remaining + 1)) related
    (Nat.lt_succ_self _)

end BodySimulation

namespace Simulation

variable {R : Formatter Feed → Formatter Feed → Prop} (sim : Simulation R)
variable {f g : Formatter Feed}
include sim

/-! ## Files -/

theorem functionBody (related : R f g) : R f.functionBody g.functionBody := by
  have header := @Simulation.perform _ sim _ _ (.endLine true) (sim.countFunction related) rfl
  have parameters := sim.unindent (sim.declarations (sim.indent header))
  exact sim.perform (sim.endLine (sim.compoundStatement parameters)) rfl

theorem fileItem (related : R f g) : R f.fileItem g.fileItem := by
  have read := sim.externalDeclaration related
  unfold Formatter.fileItem
  generalize f.externalDeclaration = first at read ⊢
  generalize g.externalDeclaration = second at read ⊢
  obtain ⟨level, first⟩ := first
  obtain ⟨other, second⟩ := second
  obtain ⟨rfl, read⟩ := read
  cases level with
  | header => exact sim.functionBody read
  | declaration => exact read

/-- A relation that the elementary steps keep is kept by the reading of a file. -/
theorem file (related : R f g) : R f.file g.file := by
  have first := sim.advance related
  unfold Formatter.file
  dsimp only
  rw [← sim.budget first]
  apply sim.endLine
  apply repeatWhile_related _ _ _ first (Nat.le_refl _) (Nat.lt_succ_self _)
  · intro f g related
    rw [sim.kind related]
  · intro f goes
    exact fileItem_lt (by simpa using goes)
  · intro f g related _ _
    exact sim.fileItem related

end Simulation

end Formatter

end CListing
