import CListing.Formatter.Remaining
import CListing.Formatter.Statement

/-!
# Nesting of statements

Along a feed a statement is read the same way however deep a nesting is provided for, as long as the
depth exceeds the number of remaining tokens: what is read inside a statement begins after one of
its tokens. So the reading of a statement satisfies its recursive equation, which is the main
statement, and nothing about depths is needed any more.
-/

namespace CListing.Formatter

/-! ## No statement makes more tokens remain -/

theorem endStatement_shrinks : Shrinks endStatement :=
  fun formatter => remaining_expect_le formatter _

theorem expressionStatement_shrinks : Shrinks expressionStatement :=
  fun formatter => Nat.le_trans (endStatement_shrinks _) (expression_shrinks _ formatter)

theorem jumpStatement_shrinks : Shrinks jumpStatement :=
  fun formatter => Nat.le_trans (endStatement_shrinks _) (remaining_advance_le formatter)

theorem returnStatement_shrinks : Shrinks returnStatement := by
  intro formatter
  unfold returnStatement
  dsimp only
  split
  · exact Nat.le_trans (endStatement_shrinks _) (remaining_advance_le formatter)
  · refine Nat.le_trans (endStatement_shrinks _) ?_
    exact Nat.le_trans (expression_shrinks _ _) (remaining_advance_le formatter)

theorem gotoStatement_shrinks : Shrinks gotoStatement := by
  intro formatter
  unfold gotoStatement
  dsimp only
  split
  · refine Nat.le_trans (endStatement_shrinks _) ?_
    exact Nat.le_trans (remaining_advance_le _) (remaining_advance_le formatter)
  · refine Nat.le_trans (endStatement_shrinks _) ?_
    exact Nat.le_trans (remaining_expect_le _ _) (remaining_advance_le formatter)

theorem caseLabel_shrinks : Shrinks caseLabel := by
  intro formatter
  unfold caseLabel
  exact Nat.le_trans (remaining_expect_le _ _) (expression_shrinks .colon formatter)

theorem blockDeclarations_shrinks : Shrinks blockDeclarations := by
  intro formatter
  unfold blockDeclarations
  split
  · exact declarations_shrinks formatter
  · exact Nat.le_refl _

section Shrinking

variable {statement : Formatter Feed → Formatter Feed} (shrinks : Shrinks statement)
include shrinks

theorem compoundVia_shrinks : Shrinks (compoundVia statement) := by
  intro formatter
  unfold compoundVia statementsVia
  refine Nat.le_trans (remaining_expect_le _ _) ?_
  refine Nat.le_trans (repeatWhile_shrinks shrinks _ _) ?_
  exact Nat.le_trans (blockDeclarations_shrinks _) (remaining_expect_le _ _)

theorem substatementVia_shrinks : Shrinks (substatementVia statement) := by
  intro formatter
  unfold substatementVia
  split
  · exact compoundVia_shrinks shrinks formatter
  · exact shrinks formatter.indent

theorem controlledVia_shrinks : Shrinks (controlledVia statement) := by
  intro formatter
  refine Nat.le_trans (substatementVia_shrinks shrinks _) ?_
  exact Nat.le_trans (parenthesized_shrinks _) (remaining_advance_le formatter)

theorem ifVia_shrinks (budget : Nat) : Shrinks (ifVia statement budget) := by
  intro formatter
  induction budget generalizing formatter with
  | zero => exact Nat.le_refl _
  | succ budget ih =>
    have first := controlledVia_shrinks shrinks formatter
    have second := remaining_advance_le (controlledVia statement formatter)
    simp only [ifVia]
    split
    · split
      · exact Nat.le_trans (ih _) (Nat.le_trans second first)
      · exact Nat.le_trans (substatementVia_shrinks shrinks _) (Nat.le_trans second first)
    · exact first

theorem doVia_shrinks : Shrinks (doVia statement) := by
  intro formatter
  have first := remaining_advance_le formatter
  have body := substatementVia_shrinks shrinks formatter.advance.endLine
  have keyword :=
    remaining_expect_le (substatementVia statement formatter.advance.endLine) .kwWhile
  have condition := parenthesized_shrinks
    ((substatementVia statement formatter.advance.endLine).expect .kwWhile)
  have final := endStatement_shrinks
    ((substatementVia statement formatter.advance.endLine).expect .kwWhile).parenthesized
  simp only [remaining_endLine] at body
  simp only [doVia]
  omega

theorem caseBodyVia_shrinks : Shrinks (caseBodyVia statement) :=
  fun formatter => repeatWhile_shrinks shrinks _ formatter.indent

theorem switchSectionVia_shrinks : Shrinks (switchSectionVia statement) := by
  intro formatter
  unfold switchSectionVia
  refine Nat.le_trans (caseBodyVia_shrinks shrinks _) ?_
  split
  · exact caseLabel_shrinks formatter
  · exact Nat.le_refl _

theorem switchVia_shrinks : Shrinks (switchVia statement) := by
  intro formatter
  have first := remaining_advance_le formatter
  have condition := parenthesized_shrinks formatter.advance
  have brace := remaining_expect_le formatter.advance.parenthesized.endLine .leftBrace
  simp only [remaining_endLine] at brace
  simp only [switchVia, remaining_endLine]
  refine Nat.le_trans (remaining_expect_le _ _) ?_
  refine Nat.le_trans (repeatWhile_shrinks (switchSectionVia_shrinks shrinks) _ _) ?_
  simp only [remaining_indent, remaining_endLine]
  omega

theorem unlabelledVia_shrinks : Shrinks (unlabelledVia statement) := by
  intro formatter
  unfold unlabelledVia
  split
  · exact compoundVia_shrinks shrinks formatter
  · exact switchVia_shrinks shrinks formatter
  · exact jumpStatement_shrinks formatter
  · exact jumpStatement_shrinks formatter
  · exact returnStatement_shrinks formatter
  · exact gotoStatement_shrinks formatter
  · exact ifVia_shrinks shrinks _ formatter
  · exact controlledVia_shrinks shrinks formatter
  · exact controlledVia_shrinks shrinks formatter
  · exact doVia_shrinks shrinks formatter
  · exact expressionStatement_shrinks formatter

end Shrinking

/-- A name that turns out to be no label counts once, whether it is looked at or not. -/
theorem remaining_lookAt_putBack {formatter : Formatter Feed}
    (name : formatter.kind.isName = true) :
    (formatter.advance.putBack.lookAt formatter.token).remaining ≤ formatter.remaining := by
  have notEnd : formatter.kind ≠ .endOfFile := by
    intro last
    simp [last, Category.isName] at name
  have fewer := remaining_advance formatter notEnd
  obtain ⟨cursor, token, script, notes, missing, functions, opened, closed, misuse⟩ := formatter
  have slot := Cursor.lookahead?_next cursor
  simp only [kind] at notEnd
  simp only [advance, putBack, Cursor.putBack, slot, lookAt, remaining, kind] at fewer ⊢
  by_cases last : cursor.next.cursor.current.category = .endOfFile
  · simp only [notEnd, last, if_true, if_false] at fewer ⊢
    omega
  · simp only [notEnd, last, if_false] at fewer ⊢
    omega

theorem statementVia_shrinks {statement : Formatter Feed → Formatter Feed}
    (shrinks : Shrinks statement) : Shrinks (statementVia statement) := by
  intro formatter
  unfold statementVia
  dsimp only
  split
  · rename_i name
    split
    · have labelled := remaining_advance_le (formatter.advance.adjust .left)
      have first := remaining_advance_le formatter
      split
      · exact Nat.le_trans labelled first
      · exact Nat.le_trans (unlabelledVia_shrinks shrinks _) (Nat.le_trans labelled first)
    · exact Nat.le_trans (unlabelledVia_shrinks shrinks _) (remaining_lookAt_putBack name)
  · exact unlabelledVia_shrinks shrinks formatter

theorem statementWithin_shrinks (depth : Nat) : Shrinks (statementWithin depth) := by
  induction depth with
  | zero => exact fun formatter => Nat.le_refl _
  | succ depth ih => exact statementVia_shrinks ih

theorem statement_shrinks : Shrinks statement :=
  fun formatter => statementWithin_shrinks _ formatter

/-! ## A statement depends on shorter statements only -/

section Agreement

variable {statement other : Formatter Feed → Formatter Feed} (shrinks : Shrinks statement)
include shrinks

theorem compoundVia_congr (formatter : Formatter Feed)
    (agree : ∀ later, later.remaining ≤ (formatter.expect .leftBrace).remaining →
      statement later = other later) :
    compoundVia statement formatter = compoundVia other formatter := by
  unfold compoundVia statementsVia
  dsimp only
  rw [repeatWhile_congr shrinks _ _ fun later fewer => agree later ?_]
  exact Nat.le_trans fewer (blockDeclarations_shrinks _)

theorem substatementVia_congr (formatter : Formatter Feed)
    (agree : ∀ later, later.remaining ≤ formatter.remaining → statement later = other later) :
    substatementVia statement formatter = substatementVia other formatter := by
  unfold substatementVia
  split
  · exact compoundVia_congr shrinks formatter fun later fewer =>
      agree later (Nat.le_trans fewer (remaining_expect_le _ _))
  · rw [agree formatter.indent (Nat.le_refl _)]

theorem controlledVia_congr (formatter : Formatter Feed)
    (agree : ∀ later, later.remaining ≤ formatter.advance.remaining →
      statement later = other later) :
    controlledVia statement formatter = controlledVia other formatter :=
  substatementVia_congr shrinks _ fun later fewer =>
    agree later (Nat.le_trans fewer (parenthesized_shrinks _))

theorem ifVia_congr (budget : Nat) (formatter : Formatter Feed)
    (agree : ∀ later, later.remaining ≤ formatter.advance.remaining →
      statement later = other later) :
    ifVia statement budget formatter = ifVia other budget formatter := by
  induction budget generalizing formatter with
  | zero => rfl
  | succ budget ih =>
    have first := controlledVia_congr shrinks formatter agree
    have fewer : (controlledVia statement formatter).remaining ≤ formatter.advance.remaining :=
      Nat.le_trans (substatementVia_shrinks shrinks _) (parenthesized_shrinks _)
    have second := remaining_advance_le (controlledVia statement formatter)
    simp only [ifVia]
    rw [← first]
    split
    · split
      · refine ih _ fun later after => agree later ?_
        have third := remaining_advance_le (controlledVia statement formatter).advance
        omega
      · refine substatementVia_congr shrinks _ fun later after => agree later ?_
        simp only [remaining_endLine] at after
        omega
    · rfl

theorem doVia_congr (formatter : Formatter Feed)
    (agree : ∀ later, later.remaining ≤ formatter.advance.remaining →
      statement later = other later) :
    doVia statement formatter = doVia other formatter := by
  have body := substatementVia_congr shrinks formatter.advance.endLine agree
  simp only [doVia, body]

theorem caseBodyVia_congr (formatter : Formatter Feed)
    (agree : ∀ later, later.remaining ≤ formatter.remaining → statement later = other later) :
    caseBodyVia statement formatter = caseBodyVia other formatter := by
  unfold caseBodyVia
  dsimp only
  rw [repeatWhile_congr shrinks _ formatter.indent agree]

theorem switchVia_congr (formatter : Formatter Feed)
    (agree : ∀ later, later.remaining ≤ formatter.advance.remaining →
      statement later = other later) :
    switchVia statement formatter = switchVia other formatter := by
  have condition := parenthesized_shrinks formatter.advance
  have brace := remaining_expect_le formatter.advance.parenthesized.endLine .leftBrace
  simp only [remaining_endLine] at brace
  unfold switchVia
  dsimp only
  rw [repeatWhile_congr (switchSectionVia_shrinks shrinks) _ _ fun place fewer => ?_]
  unfold switchSectionVia
  refine caseBodyVia_congr shrinks _ fun later after => agree later ?_
  simp only [remaining_indent, remaining_endLine] at fewer
  split at after
  · have label := caseLabel_shrinks place
    omega
  · omega

theorem unlabelledVia_congr (formatter : Formatter Feed)
    (agree : ∀ later, later.remaining < formatter.remaining → statement later = other later) :
    unlabelledVia statement formatter = unlabelledVia other formatter := by
  have below (notEnd : formatter.kind ≠ .endOfFile) (later : Formatter Feed)
      (fewer : later.remaining ≤ formatter.advance.remaining) : statement later = other later :=
    agree later (Nat.lt_of_le_of_lt fewer (remaining_advance formatter notEnd))
  unfold unlabelledVia
  split <;> rename_i begins
  · refine compoundVia_congr shrinks formatter fun later fewer => ?_
    exact below (by simp [begins]) later (by simpa [expect, begins] using fewer)
  · exact switchVia_congr shrinks formatter (below (by simp [begins]))
  · rfl
  · rfl
  · rfl
  · rfl
  · exact ifVia_congr shrinks _ formatter (below (by simp [begins]))
  · exact controlledVia_congr shrinks formatter (below (by simp [begins]))
  · exact controlledVia_congr shrinks formatter (below (by simp [begins]))
  · exact doVia_congr shrinks formatter (below (by simp [begins]))
  · rfl

theorem statementVia_congr (formatter : Formatter Feed)
    (agree : ∀ later, later.remaining < formatter.remaining → statement later = other later) :
    statementVia statement formatter = statementVia other formatter := by
  unfold statementVia
  dsimp only
  split
  · rename_i name
    split
    · split
      · rfl
      · refine unlabelledVia_congr shrinks _ fun later fewer => agree later ?_
        have first := remaining_advance_le formatter
        have labelled := remaining_advance_le (formatter.advance.adjust .left)
        simp only [remaining_adjust] at labelled
        omega
    · refine unlabelledVia_congr shrinks _ fun later fewer => agree later ?_
      exact Nat.lt_of_lt_of_le fewer (remaining_lookAt_putBack name)
  · exact unlabelledVia_congr shrinks formatter agree

end Agreement

/-- Any two depths above the number of remaining tokens are alike. -/
theorem statementWithin_eq_of_lt {depth other : Nat} {formatter : Formatter Feed}
    (enough : formatter.remaining < depth) (otherEnough : formatter.remaining < other) :
    statementWithin depth formatter = statementWithin other formatter := by
  induction depth generalizing other formatter with
  | zero => exact absurd enough (Nat.not_lt_zero _)
  | succ depth ih =>
    cases other with
    | zero => exact absurd otherEnough (Nat.not_lt_zero _)
    | succ other =>
      exact statementVia_congr (statementWithin_shrinks depth) formatter fun later fewer =>
        ih (by omega) (by omega)

/-- A statement is read by its first tokens, and the statements inside it are read likewise. -/
theorem statement_eq (formatter : Formatter Feed) :
    formatter.statement = statementVia statement formatter :=
  statementVia_congr (statementWithin_shrinks _) formatter fun _ fewer =>
    statementWithin_eq_of_lt fewer (Nat.lt_succ_self _)

end CListing.Formatter
