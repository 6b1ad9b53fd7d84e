import CListing.Proofs.Formatter.Phrases

/-!
# Dispatch

How a statement is read, by its first tokens. A name that is no label is put back and read once
more, with the statement that it begins; that comes to the same as if the token after it had not
been looked at.
-/

namespace CListing.Formatter

open Round

variable {formatter : Formatter Feed}

/-! ## Names that are no labels -/

/-- Whatever is looked at meanwhile, the token that is put back is the next one. -/
theorem advance_lookAt_putBack {σ : Type} [TokenSource σ] (formatter : Formatter σ)
    (token : Token) :
    (formatter.advance.putBack.lookAt token).advance = formatter.advance := by
  have slot : formatter.advance.cursor.lookahead? = none :=
    Cursor.lookahead?_next formatter.cursor
  have put : formatter.advance.cursor.putBack =
      .ok
        { formatter.advance.cursor with lookahead? := some formatter.advance.cursor.current } := by
    rw [Cursor.putBack, slot]
  have next := Cursor.next_putBack put
  rw [putBack, put]
  dsimp only
  rw [lookAt, advance]
  dsimp only
  rw [next]
  simp [advance]

/-- Before its terminator an expression is empty. -/
theorem expression_of_terminator {terminator : Category} (stops : formatter.kind = terminator) :
    formatter.expression terminator = formatter := by
  rw [expression_eq, (consuming_expressionLoop terminator).turn, expressionRound,
    if_pos (by simp [stops])]
  rfl

/-- An expression that begins with a name goes on behind it. -/
theorem expression_of_name (name : formatter.kind.isName = true) :
    formatter.expression .semicolon =
      expressionLoop .semicolon (formatter.kind, 0, formatter.advance) := by
  have round : expressionRound .semicolon (.foreign, 0, formatter) =
      .more (formatter.kind, 0, formatter.advance) := by
    have plain : ∀ category : Category, category.isName = true →
        category ≠ .semicolon ∧ category ≠ .endOfFile ∧ category ≠ .leftParen ∧
          category ≠ .leftBrace ∧ category ≠ .rightBrace ∧
            category.expressionSpacing .foreign = .free := by
      intro category name
      cases category <;> first | decide | contradiction
    obtain ⟨notLast, notEnd, noParen, noOpen, noClose, free⟩ := plain _ name
    rw [expressionRound_of_token notLast notEnd noParen ⟨noOpen, noClose⟩, free, adjust_free]
  rw [expression_eq, (consuming_expressionLoop .semicolon).turn, round]
  rfl

theorem expressionStatement_lookAt_putBack (name : formatter.kind.isName = true) :
    (formatter.advance.putBack.lookAt formatter.token).expressionStatement =
      formatter.expressionStatement := by
  have again : (formatter.advance.putBack.lookAt formatter.token).kind.isName = true := name
  rw [expressionStatement, expression_of_name again, advance_lookAt_putBack, expressionStatement,
    expression_of_name name]
  rfl

/-! ## Statements by their first tokens -/

/-- A statement that begins with no keyword and no brace is an expression. -/
theorem unlabelledVia_of_plain {σ : Type} [TokenSource σ] {formatter : Formatter σ}
    {read : Formatter σ → Formatter σ} (noControl : formatter.kind.isControl = false)
    (noBrace : formatter.kind ≠ .leftBrace) :
    unlabelledVia read formatter = formatter.expressionStatement := by
  unfold unlabelledVia
  split <;> first | rfl | simp_all [Category.isControl]

theorem unlabelledVia_of_name {σ : Type} [TokenSource σ] {formatter : Formatter σ}
    {read : Formatter σ → Formatter σ} (name : formatter.kind.isName = true) :
    unlabelledVia read formatter = formatter.expressionStatement := by
  have plain : ∀ category : Category, category.isName = true →
      category.isControl = false ∧ category ≠ .leftBrace := by
    intro category name
    cases category <;> first | decide | contradiction
  obtain ⟨noControl, noBrace⟩ := plain _ name
  exact unlabelledVia_of_plain noControl noBrace

theorem unlabelledVia_of_if (begins : formatter.kind = .kwIf) :
    unlabelledVia statement formatter = formatter.ifStatement := by
  rw [unlabelledVia, begins]
  rfl

theorem statement_of_not_name (noName : formatter.kind.isName = false) :
    formatter.statement = unlabelledVia statement formatter := by
  rw [statement_eq]
  exact if_neg (by simpa [kind] using noName)

/-- A statement that begins with a name without a colon is an expression. -/
theorem statement_of_name (name : formatter.kind.isName = true)
    (noColon : formatter.advance.kind ≠ .colon) :
    formatter.statement = formatter.expressionStatement := by
  have again : (formatter.advance.putBack.lookAt formatter.token).kind.isName = true := name
  rw [kind] at name
  rw [statement_eq, statementVia]
  dsimp only
  rw [if_pos name, if_neg noColon, unlabelledVia_of_name again,
    expressionStatement_lookAt_putBack name]

theorem statement_of_label (name : formatter.kind.isName = true)
    (colon : formatter.advance.kind = .colon)
    (goesOn : (formatter.advance.adjust .left).advance.kind ≠ .rightBrace) :
    formatter.statement =
      unlabelledVia statement (formatter.advance.adjust .left).advance := by
  rw [kind] at name
  rw [statement_eq, statementVia]
  dsimp only
  rw [if_pos name, if_pos colon, if_neg goesOn]

/-! ## Statements with their keywords -/

/-- A `return` is a keyword with an expression statement, which may be empty. -/
theorem returnStatement_eq (formatter : Formatter Feed) :
    formatter.returnStatement = formatter.advance.expressionStatement := by
  unfold returnStatement
  dsimp only
  split
  · rename_i stops
    rw [expressionStatement, expression_of_terminator stops]
  · rfl

theorem gotoStatement_of_name (name : formatter.advance.kind.isName = true) :
    formatter.gotoStatement = formatter.advance.advance.endStatement := by
  unfold gotoStatement
  dsimp only
  split
  · rfl
  · rename_i noUpper
    have lower : formatter.advance.kind = .identifier := by
      generalize formatter.advance.kind = category at name noUpper
      cases category <;> first | rfl | contradiction
    rw [expect_of_kind lower]

/-- An `if` is read with what stands after its `else`. -/
theorem ifStatement_eq (formatter : Formatter Feed) :
    formatter.ifStatement =
      let first := controlledVia statement formatter
      if first.kind = .kwElse then
        if first.advance.kind = .kwIf then first.advance.ifStatement
        else first.advance.endLine.substatement
      else first := by
  rw [ifStatement, budget, ifVia]
  dsimp only
  split
  · rename_i goes
    split
    · exact Call.ifVia_eq_of_lt (Call.remaining_advance_of_else goes) (Nat.lt_succ_self _)
    · rfl
  · rfl

end CListing.Formatter
