import CListing.Proofs.Formatter.Calls
import CListing.Proofs.Formatter.Invariant
import CListing.Proofs.Reader.ItemFeed

/-!
# Termination

The walk along any feed comes to its end: whatever the tokens are, each round of each loop consumes
one of them or is the last one, no chain of calls is infinite, and no budget is ever spent. Budgets
and depths only write the recursion down; they bound nothing.
-/

namespace CListing.Formatter

open Round

/-- A round of the loop over the items of a file. -/
def fileRound : Formatter Feed → Round (Formatter Feed) (Formatter Feed) :=
  whileRound (·.kind ≠ .endOfFile) fileItem

/-- The loop over the items of a file. -/
def fileLoop : Formatter Feed → Formatter Feed :=
  whileLoop (·.kind ≠ .endOfFile) fileItem

theorem file_eq (formatter : Formatter Feed) :
    formatter.file = (fileLoop formatter.advance).endLine :=
  rfl

theorem consuming_fileLoop : Consuming remaining fileRound fileLoop :=
  consuming_whileLoop fun _ goes => fileItem_lt (by simpa using goes)

/-- Each loop of the walk consumes a token in every round but the last, and its rounds come to an
end. -/
structure LoopsConsume : Prop where
  file : Consuming remaining fileRound fileLoop
  external :
    Consuming (fun state : Int × Formatter Feed => state.2.remaining) externalRound externalLoop
  declaration :
    Consuming (fun state : Nat × Formatter Feed => state.2.remaining) declarationRound
      declarationLoop
  declarations : Consuming remaining Call.declarationsRound declarations
  statements : Consuming remaining Call.statementsRound (statementsVia statement)
  sections :
    Consuming remaining Call.sectionsRound
      (whileLoop (!·.atBlockEnd) (switchSectionVia statement))
  sectionStatements :
    Consuming remaining Call.sectionRound
      (whileLoop (fun f => !f.atCase && !f.atBlockEnd) statement)
  expression (terminator : Category) :
    Consuming (fun state : InExpression Feed => state.2.2.remaining) (expressionRound terminator)
      (expressionLoop terminator)

theorem loopsConsume : LoopsConsume where
  file := consuming_fileLoop
  external := consuming_externalLoop
  declaration := consuming_declarationLoop
  declarations := Call.consuming_declarations
  statements := Call.consuming_statements
  sections := Call.consuming_sections
  sectionStatements := Call.consuming_section
  expression := consuming_expressionLoop

/-- Every walk terminates. Along any feed it ends with the end of the source as the current token,
and no loop or nesting was given up. Each round of a loop consumes a token or is the last one. No
chain of calls is infinite, where the result of a call depends on the statements inside only through
the calls that it makes. -/
theorem walk_terminates :
    (∀ (feed : Feed) (traced : Bool) (notes : List Note),
      (ofTokens feed traced notes).file.kind = .endOfFile ∧
        (ofTokens feed traced notes).file.cursor.current.category = .endOfFile ∧
        (ofTokens feed traced notes).file.ComesOff) ∧
      LoopsConsume ∧
      (WellFounded fun callee caller => Call.Makes caller callee) ∧
      (∀ (call : Call) (read : Formatter Feed → Formatter Feed),
        call.Agrees read → call.via read = call.result) ∧
      ∀ (depth : Nat) (formatter : Formatter Feed),
        formatter.remaining < depth → statementWithin depth formatter = formatter.statement := by
  refine ⟨fun feed traced notes => ?_, loopsConsume, Call.wellFounded_makes,
    fun call read agrees => call.via_eq_result agrees,
    fun depth formatter enough => statementWithin_eq_of_lt enough (Nat.lt_succ_self _)⟩
  have last : (ofTokens feed traced notes).file.kind = .endOfFile := kind_file _
  have focus : (ofTokens feed traced notes).file.Focused :=
    invariant_focused.file (Or.inl ⟨rfl, rfl⟩)
  exact ⟨last, focus.category_current last, comesOff_file feed traced notes⟩

/-- A walk along marks without their partners, and the depth that is enough for a statement
there. -/
theorem walk_terminates_unbalanced :
    (ofTokens
        (Feed.ofItems [⟨.rightBrace, ['\x7d']⟩, ⟨.leftParen, ['(']⟩, ⟨.leftBrace, ['\x7b']⟩])
        false []).file.cursor.current.category = .endOfFile ∧
      let formatter :=
        (ofTokens (Feed.ofItems [⟨.kwIf, ['i', 'f']⟩, ⟨.leftParen, ['(']⟩]) false []).advance
      formatter.remaining < 3 ∧ statementWithin 3 formatter = formatter.statement := by
  obtain ⟨walks, _, _, _, nests⟩ := walk_terminates
  exact ⟨(walks _ false []).2.1, by decide, nests 3 _ (by decide)⟩

end CListing.Formatter
