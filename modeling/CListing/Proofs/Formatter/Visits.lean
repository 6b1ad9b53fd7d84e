import CListing.Proofs.Formatter.Calls
import CListing.Proofs.Formatter.Invariant

/-!
# Invariants at calls

What the elementary steps keep holds wherever a call is made, if it holds where its caller was
called. So a property of the tokens ahead is one of all states from which the parts of a statement
are read.
-/

namespace CListing.Formatter

open Round

/-- A loop keeps what its step keeps. -/
theorem reaches_keeps {P : Formatter Feed → Prop} {condition : Formatter Feed → Bool}
    {step : Formatter Feed → Formatter Feed} (keeps : ∀ f, P f → P (step f))
    {f later : Formatter Feed} (reaches : Reaches (whileRound condition step) f later)
    (holds : P f) : P later := by
  induction reaches with
  | here => exact holds
  | more goes _ ih =>
    rw [whileRound] at goes
    split at goes
    · obtain rfl := Round.more.inj goes
      exact ih (keeps _ holds)
    · contradiction

namespace BodyInvariant

variable {P : Formatter Feed → Prop} (invariant : BodyInvariant P)
include invariant

variable {f : Formatter Feed}

theorem endLine (holds : P f) : P f.endLine :=
  invariant.performInner holds rfl

theorem indent (holds : P f) : P f.indent :=
  invariant.performInner holds rfl

theorem expect (required : Category) (holds : P f) : P (f.expect required) :=
  (invariant.simulation.expect required ⟨rfl, holds⟩).2

theorem expression (terminator : Category) (holds : P f) : P (f.expression terminator) :=
  (invariant.simulation.expression terminator ⟨rfl, holds⟩).2

theorem parenthesized (holds : P f) : P f.parenthesized :=
  (invariant.simulation.parenthesized ⟨rfl, holds⟩).2

theorem declaration (holds : P f) : P f.declaration :=
  (invariant.simulation.declaration ⟨rfl, holds⟩).2

theorem statement (holds : P f) : P f.statement :=
  (invariant.simulation.statement ⟨rfl, holds⟩).2

theorem substatement (holds : P f) : P f.substatement :=
  (invariant.simulation.substatementVia (invariant.simulation.keepsBelow (f.remaining + 1))
    ⟨rfl, holds⟩ (Nat.lt_succ_self _)).2

theorem switchSection (holds : P f) : P (switchSectionVia Formatter.statement f) :=
  (invariant.simulation.switchSectionVia (invariant.simulation.keepsBelow (f.remaining + 1))
    ⟨rfl, holds⟩ (Nat.lt_succ_self _)).2

/-- Where a chain of conditions comes to its `else`. -/
theorem controlled (holds : P f) : P (controlledVia Formatter.statement f) :=
  invariant.substatement (invariant.endLine (invariant.parenthesized (invariant.advance holds)))

theorem insideBlock (holds : P f) : P (Call.insideBlock f) :=
  invariant.indent (invariant.endLine (invariant.expect .leftBrace holds))

theorem insideChoice (holds : P f) : P (Call.insideChoice f) :=
  invariant.indent (invariant.endLine (invariant.expect .leftBrace
    (invariant.endLine (invariant.parenthesized (invariant.advance holds)))))

theorem sectionBody (holds : P f) : P (Call.sectionBody f) := by
  unfold Call.sectionBody
  split
  · exact invariant.indent (invariant.simulation.caseLabel ⟨rfl, holds⟩).2
  · exact invariant.indent holds

theorem expressionRound {terminator : Category} {state next : InExpression Feed}
    (goes : Formatter.expressionRound terminator state = .more next) (holds : P state.2.2) :
    P next.2.2 := by
  have turn := expressionTurn terminator state
  rw [goes] at turn
  cases turn with
  | @parens previous _ _ _ _ opens reads =>
    have marked := invariant.markExpression previous holds
    have called := (invariant.simulation.markCall previous ⟨rfl, marked⟩ opens).2
    rw [reads]
    exact invariant.advance (invariant.expression .rightParen (invariant.advance called))
  | leftBrace | rightBrace | other =>
    exact invariant.advance (invariant.markExpression _ holds)

theorem declarationRound {state next : Nat × Formatter Feed}
    (goes : Formatter.declarationRound state = .more next) (holds : P state.2) : P next.2 := by
  have marked := invariant.markDeclaration holds
  have turn := declarationTurn state
  rw [goes] at turn
  cases turn with
  | leftBrace => exact (invariant.simulation.openBrace ⟨rfl, marked⟩).2
  | rightBrace => exact (invariant.simulation.closeBrace ⟨rfl, marked⟩).2
  | assignment => exact invariant.expression .semicolon marked
  | semicolon => exact invariant.endLine (invariant.advance marked)
  | other => exact invariant.advance marked

theorem reachesExpression {terminator : Category} {state later : InExpression Feed}
    (reaches : Reaches (Formatter.expressionRound terminator) state later)
    (holds : P state.2.2) : P later.2.2 := by
  induction reaches with
  | here => exact holds
  | more goes _ ih => exact ih (invariant.expressionRound goes holds)

theorem reachesDeclaration {state later : Nat × Formatter Feed}
    (reaches : Reaches Formatter.declarationRound state later) (holds : P state.2) :
    P later.2 := by
  induction reaches with
  | here => exact holds
  | more goes _ ih => exact ih (invariant.declarationRound goes holds)

theorem afterLabel? {start : Formatter Feed} (label : Call.afterLabel? f = some start)
    (holds : P f) : P start := by
  obtain ⟨_, view⟩ := Call.exists_labelled label
  cases view with
  | bare => exact holds
  | name name => exact invariant.lookAgain holds name
  | label _ colon =>
    exact invariant.advance (invariant.joinLeft (invariant.advance holds) (by rw [colon]; rfl))

theorem unlabelled? {callee : Call} (begins : Call.unlabelled? f = some callee) (holds : P f) :
    P callee.formatter := by
  obtain ⟨_, view⟩ := Call.exists_unlabelled begins
  cases view with
  | value => exact invariant.advance holds
  | _ => exact holds

/-- An invariant holds wherever a call is made. -/
theorem makes {caller callee : Call} (makes : Call.Makes caller callee)
    (holds : P caller.formatter) : P callee.formatter := by
  cases makes with
  | ofStatement label begins =>
    exact invariant.unlabelled? begins (invariant.afterLabel? label holds)
  | blockOfSubstatement _ => exact holds
  | statementOfSubstatement _ => exact invariant.indent holds
  | declarationOfBlock reaches _ =>
    exact reaches_keeps (P := P) (fun _ holds => invariant.declaration holds) reaches
      (invariant.insideBlock holds)
  | statementOfBlock reaches _ =>
    exact reaches_keeps (P := P) (fun _ holds => invariant.statement holds) reaches
      (invariant.simulation.blockDeclarations ⟨rfl, invariant.insideBlock holds⟩).2
  | conditionOfConditional _ => exact invariant.advance (invariant.advance holds)
  | thenOfConditional =>
    exact invariant.endLine (invariant.parenthesized (invariant.advance holds))
  | againOfConditional _ _ => exact invariant.advance (invariant.controlled holds)
  | elseOfConditional _ _ =>
    exact invariant.endLine (invariant.advance (invariant.controlled holds))
  | conditionOfLoop _ => exact invariant.advance (invariant.advance holds)
  | bodyOfLoop => exact invariant.endLine (invariant.parenthesized (invariant.advance holds))
  | bodyOfDoLoop => exact invariant.endLine (invariant.advance holds)
  | conditionOfDoLoop body _ =>
    subst body
    have inside := invariant.substatement (invariant.endLine (invariant.advance holds))
    exact invariant.advance (invariant.expect .kwWhile inside)
  | conditionOfChoice _ => exact invariant.advance (invariant.advance holds)
  | labelOfChoice reaches _ _ =>
    exact reaches_keeps (P := P) (fun _ holds => invariant.switchSection holds) reaches
      (invariant.insideChoice holds)
  | statementOfChoice reaches _ inside _ =>
    have section_holds := reaches_keeps (P := P) (fun _ holds => invariant.switchSection holds)
      reaches (invariant.insideChoice holds)
    exact reaches_keeps (P := P) (fun _ holds => invariant.statement holds) inside
      (invariant.sectionBody section_holds)
  | initializerOfDeclaration reaches _ =>
    exact invariant.markDeclaration (invariant.reachesDeclaration reaches holds)
  | @innerOfExpression _ previous _ _ _ reaches _ opens =>
    have marked := invariant.markExpression previous (invariant.reachesExpression reaches holds)
    exact invariant.advance (invariant.simulation.markCall previous ⟨rfl, marked⟩ opens).2

end BodyInvariant

end CListing.Formatter
