import CListing.Formatter.Declaration

/-!
# Remaining tokens

What each step of a formatter along a feed does to the number of tokens that remain. No step makes
it grow, and before the end an advance makes it smaller. So any two budgets above that number are
alike: the main statements say this of expressions and of loops whose rounds consume a token.
-/

namespace CListing.Formatter

section Steps

variable (formatter : Formatter Feed)

@[simp]
theorem kind_markExpression (previous : Category) :
    (formatter.markExpression previous).kind = formatter.kind :=
  rfl

@[simp]
theorem kind_markCall (previous : Category) :
    (formatter.markCall previous).kind = formatter.kind := by
  unfold markCall
  split <;> rfl

@[simp]
theorem remaining_perform (command : Command) :
    (formatter.perform command).remaining = formatter.remaining :=
  rfl

@[simp]
theorem remaining_giveUp : formatter.giveUp.remaining = formatter.remaining :=
  rfl

@[simp]
theorem remaining_endLine : formatter.endLine.remaining = formatter.remaining :=
  rfl

@[simp]
theorem remaining_indent : formatter.indent.remaining = formatter.remaining :=
  rfl

@[simp]
theorem remaining_unindent : formatter.unindent.remaining = formatter.remaining :=
  rfl

@[simp]
theorem remaining_adjust (spacing : Spacing) :
    (formatter.adjust spacing).remaining = formatter.remaining :=
  rfl

@[simp]
theorem remaining_markDeclaration :
    formatter.markDeclaration.remaining = formatter.remaining :=
  rfl

@[simp]
theorem remaining_markExpression (previous : Category) :
    (formatter.markExpression previous).remaining = formatter.remaining :=
  rfl

@[simp]
theorem remaining_markCall (previous : Category) :
    (formatter.markCall previous).remaining = formatter.remaining := by
  unfold markCall
  split <;> rfl

@[simp]
theorem remaining_reportMissing (required : Category) :
    (formatter.reportMissing required).remaining = formatter.remaining :=
  rfl

/-- An advance never makes more tokens remain. -/
theorem remaining_advance_le : formatter.advance.remaining ≤ formatter.remaining := by
  by_cases notEnd : formatter.kind = .endOfFile
  · obtain ⟨cursor, token⟩ := formatter
    obtain ⟨source, current, spacing, lookahead, traced⟩ := cursor
    simp only [kind] at notEnd
    cases lookahead with
    | some put => simp [advance, Cursor.next, remaining, kind, notEnd]
    | none =>
      by_cases last : source.fetch.1.token.category = .endOfFile
      · have shorter := source.size_fetch_le
        simp [advance, Cursor.next, TokenSource.fetch, TokenSource.size, remaining, kind, notEnd,
          last, shorter]
      · have shorter := Feed.size_fetch_lt last
        simp [advance, Cursor.next, TokenSource.fetch, TokenSource.size, remaining, kind, notEnd,
          last]
        omega
  · exact Nat.le_of_lt (remaining_advance formatter notEnd)

/-- To expect a token never makes more tokens remain. -/
theorem remaining_expect_le (required : Category) :
    (formatter.expect required).remaining ≤ formatter.remaining := by
  unfold expect
  split
  · exact remaining_advance_le formatter
  · exact Nat.le_of_eq (remaining_reportMissing formatter required)

end Steps

/-- A step after which no more tokens remain than before. -/
def Shrinks (step : Formatter Feed → Formatter Feed) : Prop :=
  ∀ formatter, (step formatter).remaining ≤ formatter.remaining

/-! ## Loops -/

theorem repeatWhile_shrinks {condition : Formatter Feed → Bool}
    {step : Formatter Feed → Formatter Feed}
    (shrinks : Shrinks step) (budget : Nat) : Shrinks (repeatWhile condition step budget) := by
  intro formatter
  induction budget generalizing formatter with
  | zero => exact Nat.le_refl _
  | succ budget ih =>
    simp only [repeatWhile]
    split
    · exact Nat.le_trans (ih _) (shrinks formatter)
    · exact Nat.le_refl _

/-- Two loops agree if their steps agree wherever the first one can come to. -/
theorem repeatWhile_congr {condition : Formatter Feed → Bool}
    {step other : Formatter Feed → Formatter Feed}
    (shrinks : Shrinks step) (budget : Nat) (formatter : Formatter Feed)
    (agree : ∀ later, later.remaining ≤ formatter.remaining → step later = other later) :
    repeatWhile condition step budget formatter = repeatWhile condition other budget formatter := by
  induction budget generalizing formatter with
  | zero => rfl
  | succ budget ih =>
    simp only [repeatWhile]
    split
    · rw [← agree formatter (Nat.le_refl _)]
      exact ih _ fun later fewer => agree later (Nat.le_trans fewer (shrinks formatter))
    · rfl

/-- After such a loop its condition does not hold. -/
theorem condition_repeatWhile {condition : Formatter Feed → Bool}
    {step : Formatter Feed → Formatter Feed}
    (progress : ∀ formatter, condition formatter = true →
      (step formatter).remaining < formatter.remaining)
    {budget : Nat} {formatter : Formatter Feed} (enough : formatter.remaining < budget) :
    condition (repeatWhile condition step budget formatter) = false := by
  induction budget generalizing formatter with
  | zero => exact absurd enough (Nat.not_lt_zero _)
  | succ budget ih =>
    simp only [repeatWhile]
    split
    · rename_i holds
      have fewer := progress formatter holds
      exact ih (by omega)
    · rename_i fails
      simpa using fails

/-! ## Expressions -/

theorem expressionFrom_shrinks (terminator previous : Category) (braces budget : Nat) :
    Shrinks (expressionFrom terminator previous braces budget) := by
  intro formatter
  induction budget generalizing terminator previous braces formatter with
  | zero => exact Nat.le_refl _
  | succ budget ih =>
    have next := remaining_advance_le (formatter.markExpression previous)
    have called := remaining_advance_le ((formatter.markExpression previous).markCall previous)
    simp only [remaining_markExpression, remaining_markCall] at next called
    unfold expressionFrom
    split
    · exact Nat.le_refl _
    · dsimp only
      split
      · split
        · refine Nat.le_trans (ih _ _ _ _) (Nat.le_trans (remaining_advance_le _) ?_)
          exact Nat.le_trans (ih _ _ _ _) called
        · exact Nat.le_trans (ih _ _ _ _) called
      · exact Nat.le_trans (ih _ _ _ _) next
      · exact Nat.le_refl _
      · exact Nat.le_trans (ih _ _ _ _) next
      · exact Nat.le_trans (ih _ _ _ _) next

/-- The reading of an expression does not depend on its budget, if that is above the number of
remaining tokens. -/
theorem expressionFrom_eq_of_lt (terminator previous : Category) (braces : Nat)
    {budget other : Nat} {formatter : Formatter Feed} (enough : formatter.remaining < budget)
    (otherEnough : formatter.remaining < other) :
    expressionFrom terminator previous braces budget formatter =
      expressionFrom terminator previous braces other formatter := by
  induction budget generalizing terminator previous braces formatter other with
  | zero => exact absurd enough (Nat.not_lt_zero _)
  | succ budget ih =>
    cases other with
    | zero => exact absurd otherEnough (Nat.not_lt_zero _)
    | succ other =>
      by_cases stops : formatter.kind = terminator || formatter.kind = .endOfFile
      · simp only [expressionFrom]
        rw [if_pos stops, if_pos stops]
      · have notEnd : formatter.kind ≠ .endOfFile := by
          intro last
          simp [last] at stops
        have next := remaining_advance (formatter.markExpression previous) notEnd
        have called := remaining_advance ((formatter.markExpression previous).markCall previous)
          (by simpa using notEnd)
        simp only [remaining_markExpression, remaining_markCall] at next called
        have inner :
            expressionFrom .rightParen .foreign 0 budget
                ((formatter.markExpression previous).markCall previous).advance =
              expressionFrom .rightParen .foreign 0 other
                ((formatter.markExpression previous).markCall previous).advance :=
          ih _ _ _ (by omega) (by omega)
        have innerLe := expressionFrom_shrinks .rightParen .foreign 0 other
          ((formatter.markExpression previous).markCall previous).advance
        simp only [expressionFrom]
        rw [if_neg stops, if_neg stops]
        split
        · rw [inner]
          split
          · have after := remaining_advance_le (expressionFrom .rightParen .foreign 0 other
              ((formatter.markExpression previous).markCall previous).advance)
            exact ih _ _ _ (by omega) (by omega)
          · rfl
        · exact ih _ _ _ (by omega) (by omega)
        · rfl
        · exact ih _ _ _ (by omega) (by omega)
        · exact ih _ _ _ (by omega) (by omega)

theorem expression_shrinks (terminator : Category) :
    Shrinks fun formatter => formatter.expression terminator :=
  fun formatter => expressionFrom_shrinks terminator .foreign 0 formatter.budget formatter

theorem parenthesized_shrinks : Shrinks parenthesized := by
  intro formatter
  unfold parenthesized
  split
  · refine Nat.le_trans (remaining_expect_le _ _) ?_
    exact Nat.le_trans (expression_shrinks _ _) (remaining_advance_le formatter)
  · exact Nat.le_refl _

/-! ## Declarations -/

theorem openBrace_shrinks : Shrinks openBrace :=
  fun formatter => remaining_advance_le formatter.endLine

theorem closeBrace_shrinks : Shrinks closeBrace :=
  fun formatter => remaining_advance_le formatter.endLine.unindent

theorem declarationFrom_shrinks (braces budget : Nat) :
    Shrinks (declarationFrom braces budget) := by
  intro formatter
  induction budget generalizing braces formatter with
  | zero => exact Nat.le_refl _
  | succ budget ih =>
    have next := remaining_advance_le formatter.markDeclaration
    have opened := openBrace_shrinks formatter.markDeclaration
    have closed := closeBrace_shrinks formatter.markDeclaration
    have initial := expression_shrinks .semicolon formatter.markDeclaration
    simp only [remaining_markDeclaration] at next opened closed initial
    simp only [declarationFrom]
    split
    · exact Nat.le_refl _
    · split
      · exact Nat.le_trans (ih _ _) opened
      · exact Nat.le_refl _
      · exact Nat.le_trans (ih _ _) closed
      · exact Nat.le_trans (ih _ _) initial
      · exact Nat.le_trans (ih _ _) next
      · exact Nat.le_trans (ih _ _) next

theorem declaration_shrinks : Shrinks declaration :=
  fun formatter => Nat.le_trans (remaining_expect_le _ _) (declarationFrom_shrinks 0 _ formatter)

theorem declarations_shrinks : Shrinks declarations :=
  fun formatter => repeatWhile_shrinks declaration_shrinks _ formatter

end CListing.Formatter
