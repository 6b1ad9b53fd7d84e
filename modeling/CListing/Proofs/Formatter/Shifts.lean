import CListing.Proofs.Formatter.Bare
import CListing.Proofs.Formatter.Invariant
import CListing.Proofs.Listing.Width
import CListing.Proofs.Reader.FeedCommands

/-!
# Where the walk changes the depth

The walk goes deeper and comes back between lines only. A declaration, a block and a statement may
begin with a line pending, but each ends its last line, on every way out of it. So wherever one of
them is left, and wherever the pending line was just ended, the depth may be changed.
-/

namespace CListing

/-- The scan goes on behind every command that leaves the depth alone. -/
theorem Command.exists_rest? {command : Command} (stays : (!command.isShift) = true)
    (resting : Bool) : ∃ next, command.rest? resting = some next := by
  cases command <;> first | exact ⟨_, rfl⟩ | contradiction

theorem exists_rest? {script : List Command} (stays : ∀ command ∈ script, (!command.isShift) = true)
    (resting : Bool) : ∃ next, rest? resting script = some next := by
  induction script generalizing resting with
  | nil => exact ⟨resting, rfl⟩
  | cons command script ih =>
    obtain ⟨next, first⟩ := Command.exists_rest? (stays command List.mem_cons_self) resting
    have staysLater := fun other member => stays other (List.mem_cons_of_mem _ member)
    obtain ⟨last, later⟩ := ih staysLater next
    exact ⟨last, by rw [rest?_cons, first, Option.bind_some, later]⟩

namespace Formatter

/-- The script so far changes the depth between lines only, and what the feed brings along leaves
it alone. -/
structure Orderly (formatter : Formatter Feed) : Prop where
  source : formatter.cursor.source.AllCommands (!·.isShift)
  script : ∃ resting, rest? true formatter.script.toList = some resting

/-- Moreover no line is pending. -/
structure Settled (formatter : Formatter Feed) : Prop where
  source : formatter.cursor.source.AllCommands (!·.isShift)
  script : rest? true formatter.script.toList = some true

variable {f : Formatter Feed}

theorem Settled.orderly (settled : f.Settled) : f.Orderly :=
  ⟨settled.source, true, settled.script⟩

theorem Settled.indent (settled : f.Settled) : f.indent.Settled := by
  refine ⟨settled.source, ?_⟩
  rw [Formatter.indent, perform, Array.toList_push, rest?_append, settled.script]
  rfl

theorem Settled.unindent (settled : f.Settled) : f.unindent.Settled := by
  refine ⟨settled.source, ?_⟩
  rw [Formatter.unindent, perform, Array.toList_push, rest?_append, settled.script]
  rfl

namespace Orderly

theorem endLine (orderly : f.Orderly) : f.endLine.Settled := by
  obtain ⟨source, resting, script⟩ := orderly
  refine ⟨source, ?_⟩
  rw [Formatter.endLine, perform, Array.toList_push, rest?_append, script]
  rfl

/-- The pending line is ended, on a new page or with an empty line after it. -/
theorem perform (orderly : f.Orderly) (command : Command)
    (ends : ∀ resting, command.rest? resting = some true) : (f.perform command).Settled := by
  obtain ⟨source, resting, script⟩ := orderly
  refine ⟨source, ?_⟩
  rw [Formatter.perform, Array.toList_push, rest?_append, script, Option.bind_some, rest?_cons,
    ends]
  rfl

theorem reportMissing (orderly : f.Orderly) (required : Category) :
    (f.reportMissing required).Orderly := by
  obtain ⟨source, resting, script⟩ := orderly
  refine ⟨source, resting, ?_⟩
  rw [Formatter.reportMissing, Array.toList_push, rest?_append, script]
  rfl

theorem advance (orderly : f.Orderly) : f.advance.Orderly := by
  obtain ⟨source, resting, script⟩ := orderly
  cases slot : f.cursor.lookahead? with
  | none =>
    obtain ⟨fetched, rest⟩ := source.fetch rfl
    have stays : ∀ command ∈ f.cursor.release ++ f.cursor.source.fetch.1.commands,
        (!command.isShift) = true := by
      intro command member
      rcases List.mem_append.mp member with released | own
      · unfold Cursor.release at released
        split at released
        · contradiction
        · rw [List.mem_singleton.mp released]
          rfl
      · exact fetched command own
    obtain ⟨next, later⟩ := exists_rest? stays resting
    rw [advance_of_free slot]
    refine ⟨rest, next, ?_⟩
    rw [Array.toList_appendList, rest?_append, script]
    exact later
  | some token =>
    rw [advance_of_put slot]
    exact ⟨source, resting, script⟩

theorem expect (orderly : f.Orderly) (required : Category) : (f.expect required).Orderly := by
  unfold Formatter.expect
  split
  · exact orderly.advance
  · exact orderly.reportMissing required

theorem adjust (orderly : f.Orderly) (spacing : Spacing) : (f.adjust spacing).Orderly :=
  ⟨orderly.source, orderly.script⟩

theorem markDeclaration (orderly : f.Orderly) : f.markDeclaration.Orderly :=
  ⟨orderly.source, orderly.script⟩

theorem markExpression (orderly : f.Orderly) (previous : Category) :
    (f.markExpression previous).Orderly :=
  ⟨orderly.source, orderly.script⟩

theorem markCall (orderly : f.Orderly) (previous : Category) : (f.markCall previous).Orderly := by
  unfold Formatter.markCall
  split
  · exact orderly.adjust .left
  · exact orderly

theorem lookAgain (orderly : f.Orderly) : (f.advance.putBack.lookAt f.token).Orderly := by
  have next := orderly.advance
  rw [putBack_advance]
  exact ⟨next.source, next.script⟩

/-! ## Expressions and declarations -/

theorem expressionFrom (orderly : f.Orderly) (terminator previous : Category)
    (braces budget : Nat) :
    (Formatter.expressionFrom terminator previous braces budget f).Orderly := by
  induction budget generalizing terminator previous braces f with
  | zero => exact ⟨orderly.source, orderly.script⟩
  | succ budget ih =>
    have marked := orderly.markExpression previous
    simp only [Formatter.expressionFrom]
    split
    · exact orderly
    · split
      · have inner := ih (marked.markCall previous).advance .rightParen .foreign 0
        split
        · exact ih inner.advance _ _ _
        · exact inner.reportMissing .rightParen
      · exact ih marked.advance _ _ _
      · exact marked
      · exact ih marked.advance _ _ _
      · exact ih marked.advance _ _ _

theorem expression (orderly : f.Orderly) (terminator : Category) :
    (f.expression terminator).Orderly :=
  orderly.expressionFrom terminator .foreign 0 f.budget

theorem parenthesized (orderly : f.Orderly) : f.parenthesized.Orderly := by
  unfold Formatter.parenthesized
  split
  · exact (orderly.advance.expression .rightParen).expect .rightParen
  · exact orderly.reportMissing .leftParen

theorem openBrace (orderly : f.Orderly) : f.openBrace.Orderly := by
  have inside := orderly.endLine.orderly.advance.endLine.indent
  exact ⟨inside.source, true, inside.script⟩

theorem closeBrace (orderly : f.Orderly) : f.closeBrace.Orderly := by
  have after := orderly.endLine.unindent.orderly.advance
  exact ⟨after.source, after.script⟩

theorem declarationFrom (orderly : f.Orderly) (braces budget : Nat) :
    (Formatter.declarationFrom braces budget f).Orderly := by
  induction budget generalizing braces f with
  | zero => exact ⟨orderly.source, orderly.script⟩
  | succ budget ih =>
    have marked := orderly.markDeclaration
    simp only [Formatter.declarationFrom]
    split
    · exact orderly
    · split
      · exact ih marked.openBrace _
      · exact marked
      · exact ih marked.closeBrace _
      · exact ih (marked.expression .semicolon) _
      · exact ih marked.advance.endLine.orderly _
      · exact ih marked.advance _

theorem endDeclaration (orderly : f.Orderly) : f.endDeclaration.Settled :=
  (orderly.expect .semicolon).endLine

theorem declaration (orderly : f.Orderly) : f.declaration.Settled :=
  (orderly.declarationFrom 0 f.budget).endDeclaration

theorem externalFrom (orderly : f.Orderly) (braces : Int) (budget : Nat) :
    (Formatter.externalFrom braces budget f).2.Orderly := by
  induction budget generalizing braces f with
  | zero => exact ⟨orderly.source, orderly.script⟩
  | succ budget ih =>
    have marked := orderly.markDeclaration
    simp only [Formatter.externalFrom]
    split
    · exact orderly
    · split
      · exact ih marked.openBrace _
      · exact ih marked.closeBrace _
      · split
        · exact marked.advance
        · exact ih marked.advance _
      · exact ih (marked.expression .semicolon) _
      · exact ih marked.advance.endLine.orderly _
      · exact ih marked.advance _

theorem externalDeclaration (orderly : f.Orderly) : f.externalDeclaration.2.Orderly := by
  have read := orderly.externalFrom 0 f.budget
  unfold Formatter.externalDeclaration
  split
  · rename_i header
    rwa [header] at read
  · rename_i declared
    rw [declared] at read
    exact read.endDeclaration.orderly

/-! ## Statements without statements inside -/

theorem endStatement (orderly : f.Orderly) : f.endStatement.Settled :=
  (orderly.expect .semicolon).endLine

theorem expressionStatement (orderly : f.Orderly) : f.expressionStatement.Settled :=
  (orderly.expression .semicolon).endStatement

theorem jumpStatement (orderly : f.Orderly) : f.jumpStatement.Settled :=
  orderly.advance.endStatement

theorem returnStatement (orderly : f.Orderly) : f.returnStatement.Settled := by
  have value := orderly.advance
  unfold Formatter.returnStatement
  dsimp only
  split
  · exact value.endStatement
  · exact (value.expression .semicolon).endStatement

theorem gotoStatement (orderly : f.Orderly) : f.gotoStatement.Settled := by
  have label := orderly.advance
  unfold Formatter.gotoStatement
  dsimp only
  split
  · exact label.advance.endStatement
  · exact (label.expect .identifier).endStatement

theorem caseLabel (orderly : f.Orderly) : f.caseLabel.Settled :=
  (((orderly.expression .colon).adjust .left).expect .colon).endLine

end Orderly

namespace Settled

theorem declarations (settled : f.Settled) : f.declarations.Settled :=
  repeatWhile_keeps (fun _ starts => declaration_lt starts)
    (fun _ holds => holds.orderly.declaration) settled (Nat.lt_succ_self _)

theorem blockDeclarations (settled : f.Settled) : f.blockDeclarations.Settled := by
  unfold Formatter.blockDeclarations
  split
  · exact settled.declarations.orderly.perform .skipLine fun _ => rfl
  · exact settled

end Settled

/-! ## Statements -/

/-- A statement before which fewer tokens remain ends its last line. -/
def SettlesBelow (limit : Nat) : Prop :=
  ∀ {f : Formatter Feed}, f.Orderly → f.remaining < limit → f.statement.Settled

/-- Statements that are read one after the other, each before fewer tokens than the limit. -/
theorem settled_repeatWhile {limit : Nat} {condition : Formatter Feed → Bool}
    {step : Formatter Feed → Formatter Feed}
    (progress : ∀ f, condition f = true → (step f).remaining < f.remaining)
    (shrinks : Shrinks step)
    (keeps : ∀ f, f.Settled → f.remaining < limit → (step f).Settled) (settled : f.Settled)
    (within : f.remaining < limit) : (repeatWhile condition step f.budget f).Settled := by
  have kept := @repeatWhile_keeps (fun f => f.Settled ∧ f.remaining < limit) condition step progress
    (fun f holds => ⟨keeps f holds.1 holds.2, Nat.lt_of_le_of_lt (shrinks f) holds.2⟩)
    f.budget f ⟨settled, within⟩ (Nat.lt_succ_self _)
  exact kept.1

section Statements

variable {limit : Nat} (settles : SettlesBelow limit)
include settles

theorem Settled.statementsVia (settled : f.Settled) (within : f.remaining < limit) :
    (Formatter.statementsVia statement f).Settled :=
  settled_repeatWhile (fun _ goes => statement_lt (by simpa using goes)) statement_shrinks
    (fun _ holds bound => settles holds.orderly bound) settled within

theorem Orderly.compoundVia (orderly : f.Orderly)
    (within : (f.expect .leftBrace).remaining < limit) :
    (Formatter.compoundVia statement f).Settled := by
  have inside := (orderly.expect .leftBrace).endLine.indent.blockDeclarations
  have fewer := blockDeclarations_shrinks (f.expect .leftBrace).endLine.indent
  have body := inside.statementsVia settles (Nat.lt_of_le_of_lt fewer within)
  exact (body.orderly.endLine.unindent.orderly.expect .rightBrace).endLine

theorem Settled.substatementVia (settled : f.Settled) (within : f.remaining < limit) :
    (Formatter.substatementVia statement f).Settled := by
  unfold Formatter.substatementVia
  split
  · exact settled.orderly.compoundVia settles
      (Nat.lt_of_le_of_lt (remaining_expect_le _ _) within)
  · exact (settles settled.indent.orderly within).unindent

theorem Orderly.controlledVia (orderly : f.Orderly) (within : f.advance.remaining < limit) :
    (Formatter.controlledVia statement f).Settled :=
  orderly.advance.parenthesized.endLine.substatementVia settles
    (Nat.lt_of_le_of_lt (parenthesized_shrinks _) within)

theorem Orderly.ifVia {budget : Nat} (orderly : f.Orderly) (begins : f.kind = .kwIf)
    (within : f.advance.remaining < limit) (enough : f.remaining < budget) :
    (Formatter.ifVia statement budget f).Settled := by
  induction budget generalizing f with
  | zero => exact absurd enough (Nat.not_lt_zero _)
  | succ budget ih =>
    have first := orderly.controlledVia settles within
    have fewer := controlledVia_le_advance statement_shrinks f
    have shorter := remaining_advance f (by simp [begins])
    have after := remaining_advance_le (Formatter.controlledVia statement f)
    simp only [Formatter.ifVia]
    split
    · have second := first.orderly.advance
      split
      · rename_i again
        have third := remaining_advance (Formatter.controlledVia statement f).advance
          (by simp [again])
        exact ih second again (by omega) (by omega)
      · exact second.endLine.substatementVia settles (by rw [remaining_endLine]; omega)
    · exact first

theorem Orderly.doVia (orderly : f.Orderly) (within : f.advance.remaining < limit) :
    (Formatter.doVia statement f).Settled := by
  have body := orderly.advance.endLine.substatementVia settles within
  exact (body.orderly.expect .kwWhile).parenthesized.endStatement

theorem Settled.caseBodyVia (settled : f.Settled) (within : f.remaining < limit) :
    (Formatter.caseBodyVia statement f).Settled := by
  have body := settled_repeatWhile
    (fun f (goes : (!f.atCase && !f.atBlockEnd) = true) => by
      rw [Bool.and_eq_true, Bool.not_eq_true', Bool.not_eq_true'] at goes
      exact statement_lt goes.2)
    statement_shrinks (fun _ holds bound => settles holds.orderly bound) settled.indent within
  exact body.orderly.endLine.unindent

theorem Settled.switchSectionVia (settled : f.Settled) (within : f.remaining < limit) :
    (Formatter.switchSectionVia statement f).Settled := by
  unfold Formatter.switchSectionVia
  split
  · exact settled.orderly.caseLabel.caseBodyVia settles
      (Nat.lt_of_le_of_lt (caseLabel_shrinks f) within)
  · exact settled.caseBodyVia settles within

theorem Orderly.switchVia (orderly : f.Orderly) (within : f.advance.remaining < limit) :
    (Formatter.switchVia statement f).Settled := by
  have inside := (orderly.advance.parenthesized.endLine.orderly.expect .leftBrace).endLine.indent
  have fewer := remaining_expect_le f.advance.parenthesized.endLine .leftBrace
  have shrinks := parenthesized_shrinks f.advance
  simp only [remaining_endLine] at fewer
  have body := settled_repeatWhile
    (fun f (goes : (!f.atBlockEnd) = true) => switchSectionVia_lt (by simpa using goes))
    (switchSectionVia_shrinks statement_shrinks)
    (fun _ holds bound => holds.switchSectionVia settles bound) inside
    (by simp only [remaining_indent, remaining_endLine]; omega)
  exact (body.unindent.orderly.expect .rightBrace).endLine

theorem Orderly.unlabelledVia (orderly : f.Orderly) (within : f.remaining ≤ limit) :
    (Formatter.unlabelledVia statement f).Settled := by
  have below (notEnd : f.kind ≠ .endOfFile) : f.advance.remaining < limit :=
    Nat.lt_of_lt_of_le (remaining_advance f notEnd) within
  unfold Formatter.unlabelledVia
  split <;> rename_i begins
  · exact orderly.compoundVia settles
      (Nat.lt_of_lt_of_le (remaining_expect_lt begins (by decide)) within)
  · exact orderly.switchVia settles (below (by simp [begins]))
  · exact orderly.jumpStatement
  · exact orderly.jumpStatement
  · exact orderly.returnStatement
  · exact orderly.gotoStatement
  · exact orderly.ifVia settles begins (below (by simp [begins])) (Nat.lt_succ_self _)
  · exact orderly.controlledVia settles (below (by simp [begins]))
  · exact orderly.controlledVia settles (below (by simp [begins]))
  · exact orderly.doVia settles (below (by simp [begins]))
  · exact orderly.expressionStatement

theorem Orderly.statementVia (orderly : f.Orderly) (within : f.remaining ≤ limit) :
    (Formatter.statementVia statement f).Settled := by
  unfold Formatter.statementVia
  dsimp only
  split
  · rename_i name
    split
    · have labelled := (orderly.advance.adjust .left).advance
      have first := remaining_advance_le f
      have second := remaining_advance_le (f.advance.adjust .left)
      split
      · exact labelled.endLine
      · exact labelled.unlabelledVia settles (Nat.le_trans second (Nat.le_trans first within))
    · exact orderly.lookAgain.unlabelledVia settles
        (Nat.le_trans (remaining_lookAt_putBack name) within)
  · exact orderly.unlabelledVia settles within

end Statements

theorem settlesBelow (limit : Nat) : SettlesBelow limit := by
  induction limit with
  | zero =>
    intro f _ within
    exact absurd within (Nat.not_lt_zero _)
  | succ limit ih =>
    intro f orderly within
    rw [statement_eq]
    exact orderly.statementVia ih (Nat.le_of_lt_succ within)

/-! ## Files -/

theorem Orderly.compoundStatement (orderly : f.Orderly) : f.compoundStatement.Settled :=
  orderly.compoundVia (settlesBelow ((f.expect .leftBrace).remaining + 1)) (Nat.lt_succ_self _)

theorem Orderly.functionBody (orderly : f.Orderly) : f.functionBody.Orderly := by
  have counted : { f with functions := f.functions + 1 }.Orderly :=
    ⟨orderly.source, orderly.script⟩
  have parameters := (counted.perform (.endLine true) fun _ => rfl).indent.declarations.unindent
  obtain ⟨source, script⟩ := parameters.orderly.compoundStatement.orderly.endLine
  refine ⟨source, true, ?_⟩
  rw [Formatter.functionBody, Formatter.perform, Array.toList_push, rest?_append]
  rw [show rest? true _ = some true from script]
  rfl

theorem Orderly.fileItem (orderly : f.Orderly) : f.fileItem.Orderly := by
  have read := orderly.externalDeclaration
  unfold Formatter.fileItem
  split
  · rename_i header
    rw [header] at read
    exact read.functionBody
  · rename_i declared
    rwa [declared] at read

theorem Orderly.file (orderly : f.Orderly) : f.file.Settled := by
  have progress (g : Formatter Feed) (goes : decide (g.kind ≠ .endOfFile) = true) :
      g.fileItem.remaining < g.remaining :=
    fileItem_lt (by simpa using goes)
  have items := repeatWhile_keeps progress (fun g holds => Orderly.fileItem holds) orderly.advance
    (Nat.lt_succ_self _)
  exact items.endLine

/-- The walk along items changes the depth between lines only. -/
theorem rest?_ofItems (items : List Item) :
    rest? true (ofItems items).script.toList = some true := by
  have start : (ofTokens (Feed.ofItems items) false []).Orderly :=
    ⟨Feed.allCommands_ofItems rfl (fun _ => rfl) items, true, rfl⟩
  exact start.file.script

end Formatter

end CListing
