import CListing.Formatter.File

/-!
# Walks along any source

What the elementary steps of a formatter keep holds at the end of the walk along any source of
tokens, even if that has no end: giving up is one of the steps. So it holds however long the walk
goes on. In particular no walk puts back a token while another one is put back, because it puts one
back only right after it went on to that token.
-/

namespace CListing.Formatter

variable {σ : Type} [TokenSource σ]

/-- The elementary steps keep the property, whatever the source is. -/
structure StepInvariant (P : Formatter σ → Prop) : Prop where
  perform {f} (command : Command) (holds : P f) : P (f.perform command)
  reportMissing {f} (required : Category) (holds : P f) : P (f.reportMissing required)
  adjust {f} (spacing : Spacing) (holds : P f) : P (f.adjust spacing)
  advance {f} (holds : P f) : P f.advance
  lookAgain {f} (holds : P f) : P (f.advance.putBack.lookAt f.token)
  giveUp {f} (holds : P f) : P f.giveUp
  countFunction {f} (holds : P f) : P { f with functions := f.functions + 1 }
  countOpened {f} (holds : P f) : P { f with bodiesOpened := f.bodiesOpened + 1 }
  countClosed {f} (holds : P f) : P { f with bodiesClosed := f.bodiesClosed + 1 }

namespace StepInvariant

variable {P : Formatter σ → Prop} (invariant : StepInvariant P) {f : Formatter σ}
include invariant

/-- A loop keeps what its rounds keep, also when it is given up. -/
theorem repeatWhile {condition : Formatter σ → Bool} {step : Formatter σ → Formatter σ}
    (keeps : ∀ {f}, P f → P (step f)) (budget : Nat) (holds : P f) :
    P (Formatter.repeatWhile condition step budget f) := by
  induction budget generalizing f with
  | zero => exact invariant.giveUp holds
  | succ budget ih =>
    simp only [Formatter.repeatWhile]
    split
    · exact ih (keeps holds)
    · exact holds

theorem endLine (holds : P f) : P f.endLine :=
  invariant.perform (.endLine false) holds

theorem indent (holds : P f) : P f.indent :=
  invariant.perform .indent holds

theorem unindent (holds : P f) : P f.unindent :=
  invariant.perform .unindent holds

theorem expect (required : Category) (holds : P f) : P (f.expect required) := by
  unfold Formatter.expect
  split
  · exact invariant.advance holds
  · exact invariant.reportMissing required holds

/-! ## Expressions and declarations -/

theorem expressionFrom {terminator previous : Category} {braces budget : Nat} (holds : P f) :
    P (Formatter.expressionFrom terminator previous braces budget f) := by
  induction budget generalizing terminator previous braces f with
  | zero => exact invariant.giveUp holds
  | succ budget ih =>
    have marked : P (f.markExpression previous) := invariant.adjust _ holds
    have called : P ((f.markExpression previous).markCall previous) := by
      unfold markCall
      split
      · exact invariant.adjust .left marked
      · exact marked
    simp only [Formatter.expressionFrom]
    split
    · exact holds
    · split
      · have inner := @ih _ .rightParen .foreign 0 (invariant.advance called)
        split
        · exact ih (invariant.advance inner)
        · exact invariant.reportMissing .rightParen inner
      · exact ih (invariant.advance marked)
      · exact marked
      · exact ih (invariant.advance marked)
      · exact ih (invariant.advance marked)

theorem expression (terminator : Category) (holds : P f) : P (f.expression terminator) :=
  invariant.expressionFrom holds

theorem parenthesized (holds : P f) : P f.parenthesized := by
  unfold Formatter.parenthesized
  split
  · exact invariant.expect .rightParen
      (invariant.expression .rightParen (invariant.advance holds))
  · exact invariant.reportMissing .leftParen holds

theorem openBrace (holds : P f) : P f.openBrace :=
  invariant.countOpened (invariant.indent (invariant.endLine (invariant.advance
    (invariant.endLine holds))))

theorem closeBrace (holds : P f) : P f.closeBrace :=
  invariant.countClosed (invariant.advance (invariant.unindent (invariant.endLine holds)))

theorem endStatement (holds : P f) : P f.endStatement :=
  invariant.endLine (invariant.expect .semicolon holds)

theorem declarationFrom {braces budget : Nat} (holds : P f) :
    P (Formatter.declarationFrom braces budget f) := by
  induction budget generalizing braces f with
  | zero => exact invariant.giveUp holds
  | succ budget ih =>
    have marked : P f.markDeclaration := invariant.adjust _ holds
    simp only [Formatter.declarationFrom]
    split
    · exact holds
    · split
      · exact ih (invariant.openBrace marked)
      · exact marked
      · exact ih (invariant.closeBrace marked)
      · exact ih (invariant.expression .semicolon marked)
      · exact ih (invariant.endLine (invariant.advance marked))
      · exact ih (invariant.advance marked)

theorem declaration (holds : P f) : P f.declaration :=
  invariant.endStatement (invariant.declarationFrom holds)

theorem declarations (holds : P f) : P f.declarations :=
  invariant.repeatWhile invariant.declaration f.budget holds

theorem externalFrom {braces : Int} {budget : Nat} (holds : P f) :
    P (Formatter.externalFrom braces budget f).2 := by
  induction budget generalizing braces f with
  | zero => exact invariant.giveUp holds
  | succ budget ih =>
    have marked : P f.markDeclaration := invariant.adjust _ holds
    simp only [Formatter.externalFrom]
    split
    · exact holds
    · split
      · exact ih (invariant.openBrace marked)
      · exact ih (invariant.closeBrace marked)
      · split
        · exact invariant.advance marked
        · exact ih (invariant.advance marked)
      · exact ih (invariant.expression .semicolon marked)
      · exact ih (invariant.endLine (invariant.advance marked))
      · exact ih (invariant.advance marked)

theorem externalDeclaration (holds : P f) : P f.externalDeclaration.2 := by
  have read := @StepInvariant.externalFrom _ _ _ invariant f 0 f.budget holds
  unfold Formatter.externalDeclaration
  split
  · rename_i header
    rwa [header] at read
  · rename_i declared
    rw [declared] at read
    exact invariant.endStatement read

/-! ## Statements -/

theorem expressionStatement (holds : P f) : P f.expressionStatement :=
  invariant.endStatement (invariant.expression .semicolon holds)

theorem returnStatement (holds : P f) : P f.returnStatement := by
  have value := invariant.advance holds
  unfold Formatter.returnStatement
  dsimp only
  split
  · exact invariant.endStatement value
  · exact invariant.expressionStatement value

theorem gotoStatement (holds : P f) : P f.gotoStatement := by
  have label := invariant.advance holds
  unfold Formatter.gotoStatement
  dsimp only
  split
  · exact invariant.endStatement (invariant.advance label)
  · exact invariant.endStatement (invariant.expect .identifier label)

theorem caseLabel (holds : P f) : P f.caseLabel :=
  invariant.endLine (invariant.expect .colon
    (invariant.adjust .left (invariant.expression .colon holds)))

theorem blockDeclarations (holds : P f) : P f.blockDeclarations := by
  unfold Formatter.blockDeclarations
  split
  · exact invariant.perform .skipLine (invariant.declarations holds)
  · exact holds

section Nested

variable {statement : Formatter σ → Formatter σ} (keeps : ∀ {f}, P f → P (statement f))
include keeps

theorem compoundVia (holds : P f) : P (Formatter.compoundVia statement f) := by
  have opened := invariant.indent (invariant.endLine (invariant.expect .leftBrace holds))
  have body : P (Formatter.statementsVia statement _) :=
    invariant.repeatWhile keeps _ (invariant.blockDeclarations opened)
  exact invariant.endLine (invariant.expect .rightBrace (invariant.unindent
    (invariant.endLine body)))

theorem substatementVia (holds : P f) : P (Formatter.substatementVia statement f) := by
  unfold Formatter.substatementVia
  split
  · exact invariant.compoundVia keeps holds
  · exact invariant.unindent (keeps (invariant.indent holds))

theorem controlledVia (holds : P f) : P (Formatter.controlledVia statement f) :=
  invariant.substatementVia keeps
    (invariant.endLine (invariant.parenthesized (invariant.advance holds)))

theorem ifVia {budget : Nat} (holds : P f) : P (Formatter.ifVia statement budget f) := by
  induction budget generalizing f with
  | zero => exact invariant.giveUp holds
  | succ budget ih =>
    have first := invariant.controlledVia keeps holds
    simp only [Formatter.ifVia]
    split
    · split
      · exact ih (invariant.advance first)
      · exact invariant.substatementVia keeps (invariant.endLine (invariant.advance first))
    · exact first

theorem doVia (holds : P f) : P (Formatter.doVia statement f) := by
  have body := invariant.substatementVia keeps (invariant.endLine (invariant.advance holds))
  exact invariant.endStatement (invariant.parenthesized (invariant.expect .kwWhile body))

theorem switchSectionVia (holds : P f) : P (Formatter.switchSectionVia statement f) := by
  have label : P (if f.atCase then f.caseLabel else f) := by
    split
    · exact invariant.caseLabel holds
    · exact holds
  exact invariant.unindent (invariant.endLine (invariant.repeatWhile keeps _
    (invariant.indent label)))

theorem switchVia (holds : P f) : P (Formatter.switchVia statement f) := by
  have condition := invariant.endLine (invariant.parenthesized (invariant.advance holds))
  have opened := invariant.indent (invariant.endLine (invariant.expect .leftBrace condition))
  exact invariant.endLine (invariant.expect .rightBrace (invariant.unindent
    (invariant.repeatWhile (invariant.switchSectionVia keeps) _ opened)))

theorem unlabelledVia (holds : P f) : P (Formatter.unlabelledVia statement f) := by
  unfold Formatter.unlabelledVia
  split
  · exact invariant.compoundVia keeps holds
  · exact invariant.switchVia keeps holds
  · exact invariant.endStatement (invariant.advance holds)
  · exact invariant.endStatement (invariant.advance holds)
  · exact invariant.returnStatement holds
  · exact invariant.gotoStatement holds
  · exact invariant.ifVia keeps holds
  · exact invariant.controlledVia keeps holds
  · exact invariant.controlledVia keeps holds
  · exact invariant.doVia keeps holds
  · exact invariant.expressionStatement holds

theorem statementVia (holds : P f) : P (Formatter.statementVia statement f) := by
  have next := invariant.advance holds
  have labelled := invariant.advance (invariant.adjust .left next)
  unfold Formatter.statementVia
  dsimp only
  split
  · split
    · split
      · exact invariant.endLine labelled
      · exact invariant.unlabelledVia keeps labelled
    · exact invariant.unlabelledVia keeps (invariant.lookAgain holds)
  · exact invariant.unlabelledVia keeps holds

end Nested

/-- Statements keep the property at any depth of nesting. -/
theorem statementWithin (depth : Nat) (holds : P f) : P (Formatter.statementWithin depth f) := by
  induction depth generalizing f with
  | zero => exact invariant.giveUp holds
  | succ depth ih => exact invariant.statementVia ih holds

theorem statement (holds : P f) : P f.statement :=
  invariant.statementWithin f.budget holds

/-! ## Files -/

theorem functionBody (holds : P f) : P f.functionBody := by
  have header := invariant.perform (.endLine true) (invariant.countFunction holds)
  have parameters := invariant.unindent (invariant.declarations (invariant.indent header))
  have body := invariant.compoundVia invariant.statement parameters
  exact invariant.perform .endPage (invariant.endLine body)

theorem fileItem (holds : P f) : P f.fileItem := by
  have read := invariant.externalDeclaration holds
  unfold Formatter.fileItem
  split
  · rename_i header
    rw [header] at read
    exact invariant.functionBody read
  · rename_i declared
    rwa [declared] at read

/-- At the end of a walk the property holds. -/
theorem file (holds : P f) : P f.file :=
  invariant.endLine (invariant.repeatWhile invariant.fileItem _ (invariant.advance holds))

end StepInvariant

end CListing.Formatter
