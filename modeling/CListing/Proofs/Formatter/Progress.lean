import CListing.Formatter.File
import CListing.Formatter.Nesting

/-!
# Progress of a formatter

Along a feed, whatever a formatter repeats consumes a token in every round: a statement that does
not begin at the end of a block, a declaration, a section of a `switch`, an item of a file. So no
loop spends its budget. An expression stops at its terminator, at the end, or at a closing brace.
-/

namespace CListing.Formatter

variable {formatter : Formatter Feed}

theorem remaining_expect_lt {required : Category} (here : formatter.kind = required)
    (notEnd : required ≠ .endOfFile) :
    (formatter.expect required).remaining < formatter.remaining := by
  rw [expect, if_pos here]
  rw [← here] at notEnd
  exact remaining_advance formatter notEnd

/-! ## Expressions -/

/-- An expression that has a token consumes it. -/
theorem expressionFrom_lt {terminator previous : Category} {braces budget : Nat}
    (goes : formatter.kind ≠ terminator) (notEnd : formatter.kind ≠ .endOfFile)
    (noBrace : formatter.kind ≠ .rightBrace) :
    (expressionFrom terminator previous braces (budget + 1) formatter).remaining <
      formatter.remaining := by
  have next : (formatter.markExpression previous).advance.remaining < formatter.remaining :=
    remaining_advance (formatter.markExpression previous) notEnd
  have called : ((formatter.markExpression previous).markCall previous).advance.remaining <
      formatter.remaining := by
    have fewer := remaining_advance ((formatter.markExpression previous).markCall previous)
      (by simpa using notEnd)
    simpa using fewer
  have continues : ¬ (formatter.kind = terminator || formatter.kind = .endOfFile) = true := by
    simp [goes, notEnd]
  have same : (formatter.markExpression previous).kind = formatter.kind := rfl
  simp only [expressionFrom]
  rw [if_neg continues]
  split
  · have inner := expressionFrom_shrinks .rightParen .foreign 0 budget
      ((formatter.markExpression previous).markCall previous).advance
    split
    · have after := remaining_advance_le (expressionFrom .rightParen .foreign 0 budget
        ((formatter.markExpression previous).markCall previous).advance)
      exact Nat.lt_of_le_of_lt (expressionFrom_shrinks _ _ _ _ _) (by omega)
    · exact Nat.lt_of_le_of_lt inner called
  · exact Nat.lt_of_le_of_lt (expressionFrom_shrinks _ _ _ _ _) next
  · rename_i brace
    exact absurd (same ▸ brace) noBrace
  · exact Nat.lt_of_le_of_lt (expressionFrom_shrinks _ _ _ _ _) next
  · exact Nat.lt_of_le_of_lt (expressionFrom_shrinks _ _ _ _ _) next

theorem expression_lt {terminator : Category} (goes : formatter.kind ≠ terminator)
    (notEnd : formatter.kind ≠ .endOfFile) (noBrace : formatter.kind ≠ .rightBrace) :
    (formatter.expression terminator).remaining < formatter.remaining :=
  expressionFrom_lt goes notEnd noBrace

/-- Where an expression may stop. -/
def Stops (terminator kind : Category) : Prop :=
  kind = terminator ∨ kind = .endOfFile ∨ kind = .rightBrace

theorem stops_expressionFrom {terminator previous : Category} {braces budget : Nat}
    (enough : formatter.remaining < budget) :
    Stops terminator (expressionFrom terminator previous braces budget formatter).kind := by
  induction budget generalizing terminator previous braces formatter with
  | zero => exact absurd enough (Nat.not_lt_zero _)
  | succ budget ih =>
    simp only [expressionFrom]
    by_cases stop : (formatter.kind = terminator || formatter.kind = .endOfFile) = true
    · rw [if_pos stop]
      rw [Bool.or_eq_true, decide_eq_true_eq, decide_eq_true_eq] at stop
      rcases stop with here | last
      · exact Or.inl here
      · exact Or.inr (Or.inl last)
    · rw [if_neg stop]
      rw [Bool.or_eq_true, decide_eq_true_eq, decide_eq_true_eq, not_or] at stop
      have next : (formatter.markExpression previous).advance.remaining < formatter.remaining :=
        remaining_advance (formatter.markExpression previous) stop.2
      have called : ((formatter.markExpression previous).markCall previous).advance.remaining <
          formatter.remaining := by
        have fewer := remaining_advance ((formatter.markExpression previous).markCall previous)
          (by simpa using stop.2)
        simpa using fewer
      split
      · have shrinks := expressionFrom_shrinks .rightParen .foreign 0 budget
          ((formatter.markExpression previous).markCall previous).advance
        have inner := @ih ((formatter.markExpression previous).markCall previous).advance
          .rightParen .foreign 0 (by omega)
        split
        · have after := remaining_advance_le (expressionFrom .rightParen .foreign 0 budget
            ((formatter.markExpression previous).markCall previous).advance)
          exact ih (by omega)
        · rename_i unclosed
          rcases inner with closed | others
          · exact absurd closed unclosed
          · exact Or.inr others
      · exact ih (by omega)
      · rename_i brace
        exact Or.inr (Or.inr brace)
      · exact ih (by omega)
      · exact ih (by omega)

theorem stops_expression (terminator : Category) :
    Stops terminator (formatter.expression terminator).kind :=
  stops_expressionFrom (Nat.lt_succ_self _)

/-- The initial value of a declaration begins with the operator that assigns it. -/
theorem initializer_lt (assigns : formatter.kind = .assignment) :
    (formatter.expression .semicolon).remaining < formatter.remaining := by
  apply expression_lt <;> simp [assigns]

/-! ## Declarations -/

theorem openBrace_lt (notEnd : formatter.kind ≠ .endOfFile) :
    formatter.openBrace.remaining < formatter.remaining :=
  remaining_advance formatter.endLine notEnd

theorem closeBrace_lt (notEnd : formatter.kind ≠ .endOfFile) :
    formatter.closeBrace.remaining < formatter.remaining :=
  remaining_advance formatter.endLine.unindent notEnd

theorem kind_markDeclaration : formatter.markDeclaration.kind = formatter.kind :=
  rfl

theorem declarationFrom_lt {braces budget : Nat}
    (starts : formatter.kind.startsDeclaration = true) :
    (declarationFrom braces (budget + 1) formatter).remaining < formatter.remaining := by
  have notEnd : formatter.kind ≠ .endOfFile := by
    intro last
    rw [last] at starts
    contradiction
  have noSemicolon : formatter.kind ≠ .semicolon := by
    intro last
    rw [last] at starts
    contradiction
  have next : formatter.markDeclaration.advance.remaining < formatter.remaining :=
    remaining_advance formatter.markDeclaration notEnd
  simp only [declarationFrom]
  rw [if_neg (by simp [notEnd, noSemicolon])]
  rw [← kind_markDeclaration] at starts
  split <;> rename_i kind
  · rw [kind] at starts
    contradiction
  · rw [kind] at starts
    contradiction
  · rw [kind] at starts
    contradiction
  · rw [kind] at starts
    contradiction
  · rw [kind] at starts
    contradiction
  · exact Nat.lt_of_le_of_lt (declarationFrom_shrinks _ _ _) next

/-- A declaration that is begun consumes a token. -/
theorem declaration_lt (starts : formatter.kind.startsDeclaration = true) :
    formatter.declaration.remaining < formatter.remaining :=
  Nat.lt_of_le_of_lt (remaining_expect_le _ _) (declarationFrom_lt starts)

theorem externalFrom_shrinks (braces : Int) (budget : Nat) :
    Shrinks fun formatter => (externalFrom braces budget formatter).2 := by
  intro formatter
  induction budget generalizing braces formatter with
  | zero => exact Nat.le_refl _
  | succ budget ih =>
    have next := remaining_advance_le formatter.markDeclaration
    have opened := openBrace_shrinks formatter.markDeclaration
    have closed := closeBrace_shrinks formatter.markDeclaration
    have initial := expression_shrinks .semicolon formatter.markDeclaration
    simp only [remaining_markDeclaration] at next opened closed initial
    simp only [externalFrom]
    split
    · exact Nat.le_refl _
    · split
      · exact Nat.le_trans (ih _ _) opened
      · exact Nat.le_trans (ih _ _) closed
      · split
        · exact next
        · exact Nat.le_trans (ih _ _) next
      · exact Nat.le_trans (ih _ _) initial
      · exact Nat.le_trans (ih _ _) next
      · exact Nat.le_trans (ih _ _) next

theorem externalFrom_lt {braces : Int} {budget : Nat} (notEnd : formatter.kind ≠ .endOfFile)
    (goes : ¬ (braces ≤ 0 ∧ formatter.kind = .semicolon)) :
    (externalFrom braces (budget + 1) formatter).2.remaining < formatter.remaining := by
  have next : formatter.markDeclaration.advance.remaining < formatter.remaining :=
    remaining_advance formatter.markDeclaration notEnd
  have opened := @openBrace_lt formatter.markDeclaration notEnd
  have closed := @closeBrace_lt formatter.markDeclaration notEnd
  simp only [externalFrom]
  rw [if_neg (by simpa [notEnd] using goes)]
  split
  · exact Nat.lt_of_le_of_lt (externalFrom_shrinks _ _ _) opened
  · exact Nat.lt_of_le_of_lt (externalFrom_shrinks _ _ _) closed
  · split
    · exact next
    · exact Nat.lt_of_le_of_lt (externalFrom_shrinks _ _ _) next
  · rename_i assigns
    have initial := @initializer_lt formatter.markDeclaration assigns
    exact Nat.lt_of_le_of_lt (externalFrom_shrinks _ _ _) initial
  · exact Nat.lt_of_le_of_lt (externalFrom_shrinks _ _ _) next
  · exact Nat.lt_of_le_of_lt (externalFrom_shrinks _ _ _) next

theorem externalDeclaration_lt (notEnd : formatter.kind ≠ .endOfFile) :
    formatter.externalDeclaration.2.remaining < formatter.remaining := by
  unfold externalDeclaration
  by_cases semicolon : formatter.kind = .semicolon
  · have stays : externalFrom 0 formatter.budget formatter = (.declaration, formatter) := by
      simp [budget, externalFrom, semicolon]
    rw [stays]
    exact remaining_expect_lt semicolon (by decide)
  · have read := @externalFrom_lt formatter 0 formatter.remaining notEnd (by simp [semicolon])
    rw [budget]
    split
    · rename_i header
      rwa [header] at read
    · rename_i declared
      rw [declared] at read
      exact Nat.lt_of_le_of_lt (remaining_expect_le _ _) read

/-! ## Statements -/

theorem expressionStatement_lt (notEnd : formatter.kind ≠ .endOfFile)
    (noBrace : formatter.kind ≠ .rightBrace) :
    formatter.expressionStatement.remaining < formatter.remaining := by
  unfold expressionStatement
  by_cases semicolon : formatter.kind = .semicolon
  · have stays : formatter.expression .semicolon = formatter := by
      simp [expression, budget, expressionFrom, semicolon]
    rw [stays]
    exact remaining_expect_lt semicolon (by decide)
  · exact Nat.lt_of_le_of_lt (endStatement_shrinks _) (expression_lt semicolon notEnd noBrace)

theorem jumpStatement_lt (notEnd : formatter.kind ≠ .endOfFile) :
    formatter.jumpStatement.remaining < formatter.remaining :=
  Nat.lt_of_le_of_lt (endStatement_shrinks _) (remaining_advance formatter notEnd)

theorem returnStatement_lt (notEnd : formatter.kind ≠ .endOfFile) :
    formatter.returnStatement.remaining < formatter.remaining := by
  have first := remaining_advance formatter notEnd
  unfold returnStatement
  dsimp only
  split
  · exact Nat.lt_of_le_of_lt (endStatement_shrinks _) first
  · refine Nat.lt_of_le_of_lt (endStatement_shrinks _) ?_
    exact Nat.lt_of_le_of_lt (expression_shrinks _ _) first

theorem gotoStatement_lt (notEnd : formatter.kind ≠ .endOfFile) :
    formatter.gotoStatement.remaining < formatter.remaining := by
  have first := remaining_advance formatter notEnd
  unfold gotoStatement
  dsimp only
  split
  · refine Nat.lt_of_le_of_lt (endStatement_shrinks _) ?_
    exact Nat.lt_of_le_of_lt (remaining_advance_le _) first
  · refine Nat.lt_of_le_of_lt (endStatement_shrinks _) ?_
    exact Nat.lt_of_le_of_lt (remaining_expect_le _ _) first

section Consuming

variable {statement : Formatter Feed → Formatter Feed} (shrinks : Shrinks statement)
include shrinks

theorem compoundVia_le_expect (formatter : Formatter Feed) :
    (compoundVia statement formatter).remaining ≤ (formatter.expect .leftBrace).remaining := by
  unfold compoundVia statementsVia
  refine Nat.le_trans (remaining_expect_le _ _) ?_
  refine Nat.le_trans (repeatWhile_shrinks shrinks _ _) ?_
  exact blockDeclarations_shrinks _

theorem controlledVia_le_advance (formatter : Formatter Feed) :
    (controlledVia statement formatter).remaining ≤ formatter.advance.remaining :=
  Nat.le_trans (substatementVia_shrinks shrinks _) (parenthesized_shrinks _)

theorem ifVia_lt {budget : Nat} (notEnd : formatter.kind ≠ .endOfFile) :
    (ifVia statement (budget + 1) formatter).remaining < formatter.remaining := by
  have first : (controlledVia statement formatter).remaining < formatter.remaining :=
    Nat.lt_of_le_of_lt (controlledVia_le_advance shrinks formatter)
      (remaining_advance formatter notEnd)
  have second := remaining_advance_le (controlledVia statement formatter)
  simp only [ifVia]
  split
  · split
    · exact Nat.lt_of_le_of_lt (ifVia_shrinks shrinks _ _) (Nat.lt_of_le_of_lt second first)
    · exact Nat.lt_of_le_of_lt (substatementVia_shrinks shrinks _)
        (Nat.lt_of_le_of_lt second first)
  · exact first

theorem doVia_le_advance (formatter : Formatter Feed) :
    (doVia statement formatter).remaining ≤ formatter.advance.remaining := by
  refine Nat.le_trans (endStatement_shrinks _) ?_
  refine Nat.le_trans (parenthesized_shrinks _) ?_
  refine Nat.le_trans (remaining_expect_le _ _) ?_
  exact substatementVia_shrinks shrinks _

theorem switchVia_le_advance (formatter : Formatter Feed) :
    (switchVia statement formatter).remaining ≤ formatter.advance.remaining := by
  have condition := parenthesized_shrinks formatter.advance
  have brace := remaining_expect_le formatter.advance.parenthesized.endLine .leftBrace
  simp only [remaining_endLine] at brace
  simp only [switchVia, remaining_endLine]
  refine Nat.le_trans (remaining_expect_le _ _) ?_
  refine Nat.le_trans (repeatWhile_shrinks (switchSectionVia_shrinks shrinks) _ _) ?_
  exact Nat.le_trans brace condition

theorem unlabelledVia_lt (inside : formatter.atBlockEnd = false) :
    (unlabelledVia statement formatter).remaining < formatter.remaining := by
  have notEnd : formatter.kind ≠ .endOfFile := by
    intro last
    simp [atBlockEnd, last] at inside
  have noBrace : formatter.kind ≠ .rightBrace := by
    intro last
    simp [atBlockEnd, last] at inside
  have first := remaining_advance formatter notEnd
  unfold unlabelledVia
  split
  · rename_i brace
    exact Nat.lt_of_le_of_lt (compoundVia_le_expect shrinks _)
      (remaining_expect_lt brace (by decide))
  · exact Nat.lt_of_le_of_lt (switchVia_le_advance shrinks _) first
  · exact jumpStatement_lt notEnd
  · exact jumpStatement_lt notEnd
  · exact returnStatement_lt notEnd
  · exact gotoStatement_lt notEnd
  · exact ifVia_lt shrinks notEnd
  · exact Nat.lt_of_le_of_lt (controlledVia_le_advance shrinks _) first
  · exact Nat.lt_of_le_of_lt (controlledVia_le_advance shrinks _) first
  · exact Nat.lt_of_le_of_lt (doVia_le_advance shrinks _) first
  · exact expressionStatement_lt notEnd noBrace

theorem statementVia_lt (inside : formatter.atBlockEnd = false) :
    (statementVia statement formatter).remaining < formatter.remaining := by
  have notEnd : formatter.kind ≠ .endOfFile := by
    intro last
    simp [atBlockEnd, last] at inside
  have first := remaining_advance formatter notEnd
  unfold statementVia
  dsimp only
  split
  · rename_i name
    split
    · have labelled := remaining_advance_le (formatter.advance.adjust .left)
      split
      · exact Nat.lt_of_le_of_lt labelled first
      · exact Nat.lt_of_le_of_lt (unlabelledVia_shrinks shrinks _)
          (Nat.lt_of_le_of_lt labelled first)
    · -- The name is looked at again, so the statement proper consumes it.
      have again : (formatter.advance.putBack.lookAt formatter.token).atBlockEnd = false := inside
      exact Nat.lt_of_lt_of_le (unlabelledVia_lt shrinks again) (remaining_lookAt_putBack name)
  · exact unlabelledVia_lt shrinks inside

end Consuming

/-- A statement that does not begin at the end of a block consumes a token. -/
theorem statement_lt (inside : formatter.atBlockEnd = false) :
    formatter.statement.remaining < formatter.remaining := by
  rw [statement_eq]
  exact statementVia_lt statement_shrinks inside

theorem caseLabel_lt (label : formatter.atCase = true) :
    formatter.caseLabel.remaining < formatter.remaining := by
  rw [atCase, Bool.or_eq_true, decide_eq_true_eq, decide_eq_true_eq] at label
  have read : (formatter.expression .colon).remaining < formatter.remaining := by
    rcases label with case | default <;> apply expression_lt <;> simp [*]
  exact Nat.lt_of_le_of_lt (remaining_expect_le _ _) read

/-- A section of a `switch` consumes a token. -/
theorem switchSectionVia_lt (inside : formatter.atBlockEnd = false) :
    (switchSectionVia statement formatter).remaining < formatter.remaining := by
  unfold switchSectionVia
  split
  · rename_i label
    exact Nat.lt_of_le_of_lt (caseBodyVia_shrinks statement_shrinks _) (caseLabel_lt label)
  · rename_i noLabel
    have first : formatter.indent.statement.remaining < formatter.remaining :=
      @statement_lt formatter.indent inside
    have goes : (fun f : Formatter Feed => !f.atCase && !f.atBlockEnd) formatter.indent = true := by
      have noCase : formatter.atCase = false := by simpa using noLabel
      simp only [Bool.and_eq_true, Bool.not_eq_true']
      exact ⟨noCase, inside⟩
    unfold caseBodyVia
    simp only [remaining_unindent, remaining_endLine, budget, repeatWhile]
    rw [if_pos goes]
    exact Nat.lt_of_le_of_lt (repeatWhile_shrinks statement_shrinks _ _) first

/-! ## Files -/

theorem functionBody_shrinks : Shrinks functionBody := by
  intro formatter
  simp only [functionBody, remaining_perform, remaining_endLine]
  refine Nat.le_trans (compoundVia_shrinks statement_shrinks _) ?_
  exact declarations_shrinks _

/-- A declaration or function consumes a token. -/
theorem fileItem_lt (notEnd : formatter.kind ≠ .endOfFile) :
    formatter.fileItem.remaining < formatter.remaining := by
  have read := externalDeclaration_lt notEnd
  unfold fileItem
  split
  · rename_i header
    rw [header] at read
    exact Nat.lt_of_le_of_lt (functionBody_shrinks _) read
  · rename_i declared
    rwa [declared] at read

/-- A file is read up to its end. -/
theorem kind_file (formatter : Formatter Feed) : formatter.file.kind = .endOfFile := by
  have progress (f : Formatter Feed) (goes : decide (f.kind ≠ .endOfFile) = true) :
      f.fileItem.remaining < f.remaining :=
    fileItem_lt (by simpa using goes)
  have stops := condition_repeatWhile progress (Nat.lt_succ_self formatter.advance.remaining)
  exact Decidable.not_not.mp (decide_eq_false_iff_not.mp stops)

end CListing.Formatter
