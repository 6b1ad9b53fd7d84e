import CListing.Proofs.Formatter.Progress

/-!
# Rounds of the loops

What a loop does is given by its rounds: a round leaves the loop with a result or goes on from
another state. Along a feed each round of each loop consumes a token or is the last one, so the
rounds come to an end from every state, and the result they come to is the one that is computed
with a budget. The budget therefore has no part in what the loops mean.
-/

namespace CListing

/-- What one round of a loop comes to. -/
inductive Round (α β : Type)
  /-- The loop is left with a result. -/
  | done (result : β)
  /-- The loop goes on from another state. -/
  | more (next : α)

namespace Round

variable {α β : Type} {round : α → Round α β}

/-- The loop comes from one state to another. -/
inductive Reaches (round : α → Round α β) : α → α → Prop
  | here (state : α) : Reaches round state state
  | more {state next later : α} (goes : round state = .more next)
      (after : Reaches round next later) : Reaches round state later

/-- From a state on, the loop takes finitely many rounds and is left with a result. -/
inductive Finishes (round : α → Round α β) : α → β → Prop
  | done {state : α} {result : β} (leaves : round state = .done result) :
      Finishes round state result
  | more {state next : α} {result : β} (goes : round state = .more next)
      (after : Finishes round next result) : Finishes round state result

/-- A loop is left with one result only. -/
theorem Finishes.unique {state : α} {result other : β} (finishes : Finishes round state result)
    (again : Finishes round state other) : result = other := by
  induction finishes with
  | done leaves =>
    cases again with
    | done leavesToo =>
      rw [leaves, Round.done.injEq] at leavesToo
      exact leavesToo
    | more goes _ =>
      rw [leaves] at goes
      contradiction
  | more goes _ ih =>
    cases again with
    | done leaves =>
      rw [goes] at leaves
      contradiction
    | more goesToo after =>
      rw [goes, Round.more.injEq] at goesToo
      subst goesToo
      exact ih after

/-- A loop that is left comes nowhere else. -/
theorem Reaches.of_done {state later : α} {result : β} (reaches : Reaches round state later)
    (leaves : round state = .done result) : later = state := by
  cases reaches with
  | here => rfl
  | more goes _ =>
    rw [leaves] at goes
    contradiction

/-- Every round of the loop consumes a token or is the last one, and the rounds from any state on
come to an end with the result of the loop. -/
structure Consuming (remaining : α → Nat) (round : α → Round α β) (loop : α → β) : Prop where
  consumes {state next : α} (goes : round state = .more next) : remaining next < remaining state
  finishes (state : α) : Finishes round state (loop state)

/-- What a round comes to in the end, if the loop goes on as given. -/
def result (loop : α → β) : Round α β → β
  | done result => result
  | more next => loop next

/-- A loop that takes one round for each unit of its budget finishes if it begins with a larger
budget than there are tokens. -/
theorem Consuming.ofTurns {remaining : α → Nat} (within : Nat → α → β)
    (consumes : ∀ {state next}, round state = .more next → remaining next < remaining state)
    (turn : ∀ {budget state}, remaining state ≤ budget →
      within (budget + 1) state = (round state).result (within budget)) :
    Consuming remaining round fun state => within (remaining state + 1) state := by
  have finishes {budget : Nat} {state : α} (enough : remaining state < budget) :
      Finishes round state (within budget state) := by
    induction budget generalizing state with
    | zero => exact absurd enough (Nat.not_lt_zero _)
    | succ budget ih =>
      rw [turn (Nat.le_of_lt_succ enough)]
      cases goes : round state with
      | done result => exact .done goes
      | more next =>
        have fewer := consumes goes
        exact .more goes (ih (by omega))
  exact ⟨consumes, fun state => finishes (Nat.lt_succ_self _)⟩

namespace Consuming

variable {remaining : α → Nat} {loop : α → β} (consuming : Consuming remaining round loop)
include consuming

/-- What is reached has no more tokens before it. -/
theorem remaining_le {state later : α} (reaches : Reaches round state later) :
    remaining later ≤ remaining state := by
  induction reaches with
  | here => exact Nat.le_refl _
  | more goes _ ih => exact Nat.le_trans ih (Nat.le_of_lt (consuming.consumes goes))

/-- A loop takes its rounds one by one. -/
theorem turn (state : α) : loop state = (round state).result loop := by
  cases goes : round state with
  | done result => exact (consuming.finishes state).unique (.done goes)
  | more next => exact (consuming.finishes state).unique (.more goes (consuming.finishes next))

/-- A round that goes on leaves the rest to the loop. -/
theorem eq_of_more {state next : α} (goes : round state = .more next) : loop state = loop next := by
  rw [consuming.turn, goes]
  rfl

theorem eq_of_done {state : α} {result : β} (leaves : round state = .done result) :
    loop state = result := by
  rw [consuming.turn, leaves]
  rfl

/-- The loop comes to the same result from every state on its way. -/
theorem eq_of_reaches {state later : α} (reaches : Reaches round state later) :
    loop state = loop later := by
  induction reaches with
  | here => rfl
  | more goes _ ih => exact (consuming.eq_of_more goes).trans ih

end Consuming

end Round

namespace Formatter

open Round

/-! ## Loops over whole constructs -/

section Loops

variable {σ : Type}

/-- A round of a loop that repeats a step while a condition holds. -/
def whileRound (condition : Formatter σ → Bool) (step : Formatter σ → Formatter σ)
    (formatter : Formatter σ) : Round (Formatter σ) (Formatter σ) :=
  if condition formatter then .more (step formatter) else .done formatter

variable [TokenSource σ]

/-- The loop that repeats a step while a condition holds. -/
def whileLoop (condition : Formatter σ → Bool) (step : Formatter σ → Formatter σ)
    (formatter : Formatter σ) : Formatter σ :=
  repeatWhile condition step formatter.budget formatter

/-- The state of the loop of an expression: the category of the token before, the braces open, and
the formatter. -/
abbrev InExpression (σ : Type) := Category × Nat × Formatter σ

/-- A round of the loop of an expression. -/
def expressionRound (terminator : Category) :
    InExpression σ → Round (InExpression σ) (Formatter σ)
  | (previous, braces, formatter) =>
    if formatter.kind = terminator || formatter.kind = .endOfFile then .done formatter
    else
      let formatter := formatter.markExpression previous
      match formatter.kind, braces with
      | .leftParen, _ =>
        let inner := (formatter.markCall previous).advance.expression .rightParen
        if inner.kind = .rightParen then .more (.rightParen, braces, inner.advance)
        else .done (inner.reportMissing .rightParen)
      | .leftBrace, _ => .more (.leftBrace, braces + 1, formatter.advance)
      | .rightBrace, 0 => .done formatter
      | .rightBrace, outer + 1 => .more (.rightBrace, outer, formatter.advance)
      | kind, _ => .more (kind, braces, formatter.advance)

/-- The loop of an expression. -/
def expressionLoop (terminator : Category) : InExpression σ → Formatter σ
  | (previous, braces, formatter) =>
    expressionFrom terminator previous braces formatter.budget formatter

/-- A round of the loop of a declaration inside a function, with so many braces open. -/
def declarationRound : Nat × Formatter σ → Round (Nat × Formatter σ) (Formatter σ)
  | (braces, formatter) =>
    if (braces = 0 && formatter.kind = .semicolon) || formatter.kind = .endOfFile then
      .done formatter
    else
      let formatter := formatter.markDeclaration
      match formatter.kind, braces with
      | .leftBrace, _ => .more (braces + 1, formatter.openBrace)
      | .rightBrace, 0 => .done formatter
      | .rightBrace, outer + 1 => .more (outer, formatter.closeBrace)
      | .assignment, _ => .more (braces, formatter.expression .semicolon)
      | .semicolon, _ => .more (braces, formatter.advance.endLine)
      | _, _ => .more (braces, formatter.advance)

/-- The loop of a declaration inside a function. -/
def declarationLoop : Nat × Formatter σ → Formatter σ
  | (braces, formatter) => declarationFrom braces formatter.budget formatter

/-- A round of the loop of a declaration at file level, with so many braces open. -/
def externalRound :
    Int × Formatter σ → Round (Int × Formatter σ) (FileLevel × Formatter σ)
  | (braces, formatter) =>
    if (braces ≤ 0 && formatter.kind = .semicolon) || formatter.kind = .endOfFile then
      .done (.declaration, formatter)
    else
      let formatter := formatter.markDeclaration
      match formatter.kind with
      | .leftBrace => .more (braces + 1, formatter.openBrace)
      | .rightBrace => .more (braces - 1, formatter.closeBrace)
      | .rightParen =>
        let next := formatter.advance
        if braces = 0 && !next.kind.goesOnWithDeclaration then .done (.header, next)
        else .more (braces, next)
      | .assignment => .more (braces, formatter.expression .semicolon)
      | .semicolon => .more (braces, formatter.advance.endLine)
      | _ => .more (braces, formatter.advance)

/-- The loop of a declaration at file level. -/
def externalLoop : Int × Formatter σ → FileLevel × Formatter σ
  | (braces, formatter) => externalFrom braces formatter.budget formatter

end Loops

/-! ## What a round does -/

/-- What a round of an expression does, by the token at which it stands. -/
inductive ExpressionTurn (terminator : Category) :
    InExpression Feed → Round (InExpression Feed) (Formatter Feed) → Prop
  | stop {previous : Category} {braces : Nat} {f : Formatter Feed}
      (stops : f.kind = terminator ∨ f.kind = .endOfFile) :
      ExpressionTurn terminator (previous, braces, f) (.done f)
  | parens {previous : Category} {braces : Nat} {f inner : Formatter Feed}
      (goes : f.kind ≠ terminator) (opens : f.kind = .leftParen)
      (reads : inner =
        ((f.markExpression previous).markCall previous).advance.expression .rightParen)
      (closes : inner.kind = .rightParen) :
      ExpressionTurn terminator (previous, braces, f) (.more (.rightParen, braces, inner.advance))
  | missing {previous : Category} {braces : Nat} {f inner : Formatter Feed}
      (goes : f.kind ≠ terminator) (opens : f.kind = .leftParen)
      (reads : inner =
        ((f.markExpression previous).markCall previous).advance.expression .rightParen)
      (unclosed : inner.kind ≠ .rightParen) :
      ExpressionTurn terminator (previous, braces, f) (.done (inner.reportMissing .rightParen))
  | leftBrace {previous : Category} {braces : Nat} {f : Formatter Feed}
      (goes : f.kind ≠ terminator) (opens : f.kind = .leftBrace) :
      ExpressionTurn terminator (previous, braces, f)
        (.more (.leftBrace, braces + 1, (f.markExpression previous).advance))
  | unmatched {previous : Category} {f : Formatter Feed} (goes : f.kind ≠ terminator)
      (closes : f.kind = .rightBrace) :
      ExpressionTurn terminator (previous, 0, f) (.done (f.markExpression previous))
  | rightBrace {previous : Category} {outer : Nat} {f : Formatter Feed}
      (goes : f.kind ≠ terminator) (closes : f.kind = .rightBrace) :
      ExpressionTurn terminator (previous, outer + 1, f)
        (.more (.rightBrace, outer, (f.markExpression previous).advance))
  | other {previous : Category} {braces : Nat} {f : Formatter Feed} (goes : f.kind ≠ terminator)
      (notEnd : f.kind ≠ .endOfFile) (noParen : f.kind ≠ .leftParen)
      (noOpen : f.kind ≠ .leftBrace) (noClose : f.kind ≠ .rightBrace) :
      ExpressionTurn terminator (previous, braces, f)
        (.more (f.kind, braces, (f.markExpression previous).advance))

theorem expressionTurn (terminator : Category) (state : InExpression Feed) :
    ExpressionTurn terminator state (expressionRound terminator state) := by
  obtain ⟨previous, braces, f⟩ := state
  simp only [expressionRound]
  split
  · rename_i stops
    exact .stop (by simpa using stops)
  · rename_i continues
    rw [Bool.or_eq_true, decide_eq_true_iff, decide_eq_true_iff, not_or] at continues
    obtain ⟨goes, notEnd⟩ := continues
    rw [kind_markExpression]
    split
    · split
      · exact .parens goes ‹_› rfl ‹_›
      · exact .missing goes ‹_› rfl ‹_›
    · exact .leftBrace goes ‹_›
    · exact .unmatched goes ‹_›
    · exact .rightBrace goes ‹_›
    · rename_i braces _ _ noParen noOpen noZero noMore
      have noClose : f.kind ≠ .rightBrace := by
        intro closes
        cases braces with
        | zero => exact noZero closes rfl
        | succ outer => exact noMore outer closes rfl
      exact .other goes notEnd noParen noOpen noClose

/-- What a round of a declaration inside a function does, by the token at which it stands. -/
inductive DeclarationTurn :
    Nat × Formatter Feed → Round (Nat × Formatter Feed) (Formatter Feed) → Prop
  | stop {braces : Nat} {f : Formatter Feed}
      (stops : (braces = 0 ∧ f.kind = .semicolon) ∨ f.kind = .endOfFile) :
      DeclarationTurn (braces, f) (.done f)
  | leftBrace {braces : Nat} {f : Formatter Feed} (opens : f.kind = .leftBrace) :
      DeclarationTurn (braces, f) (.more (braces + 1, f.markDeclaration.openBrace))
  | unmatched {f : Formatter Feed} (closes : f.kind = .rightBrace) :
      DeclarationTurn (0, f) (.done f.markDeclaration)
  | rightBrace {outer : Nat} {f : Formatter Feed} (closes : f.kind = .rightBrace) :
      DeclarationTurn (outer + 1, f) (.more (outer, f.markDeclaration.closeBrace))
  | assignment {braces : Nat} {f : Formatter Feed} (assigns : f.kind = .assignment) :
      DeclarationTurn (braces, f) (.more (braces, f.markDeclaration.expression .semicolon))
  | semicolon {braces : Nat} {f : Formatter Feed} (ends : f.kind = .semicolon) :
      DeclarationTurn (braces, f) (.more (braces, f.markDeclaration.advance.endLine))
  | other {braces : Nat} {f : Formatter Feed} (notEnd : f.kind ≠ .endOfFile)
      (noOpen : f.kind ≠ .leftBrace) (noClose : f.kind ≠ .rightBrace)
      (noAssignment : f.kind ≠ .assignment) :
      DeclarationTurn (braces, f) (.more (braces, f.markDeclaration.advance))

theorem declarationTurn (state : Nat × Formatter Feed) :
    DeclarationTurn state (declarationRound state) := by
  obtain ⟨braces, f⟩ := state
  simp only [declarationRound]
  split
  · rename_i stops
    exact .stop (by simpa using stops)
  · rename_i continues
    rw [Bool.or_eq_true, decide_eq_true_iff, not_or] at continues
    rw [kind_markDeclaration]
    split
    · exact .leftBrace ‹_›
    · exact .unmatched ‹_›
    · exact .rightBrace ‹_›
    · exact .assignment ‹_›
    · exact .semicolon ‹_›
    · rename_i braces _ _ noOpen noAssignment _ noZero noMore
      have noClose : f.kind ≠ .rightBrace := by
        intro closes
        cases braces with
        | zero => exact noZero closes rfl
        | succ outer => exact noMore outer closes rfl
      exact .other continues.2 noOpen noClose noAssignment

/-- What a round of a declaration at file level does, by the token at which it stands. -/
inductive ExternalTurn :
    Int × Formatter Feed → Round (Int × Formatter Feed) (FileLevel × Formatter Feed) → Prop
  | stop {braces : Int} {f : Formatter Feed}
      (stops : (braces ≤ 0 ∧ f.kind = .semicolon) ∨ f.kind = .endOfFile) :
      ExternalTurn (braces, f) (.done (.declaration, f))
  | leftBrace {braces : Int} {f : Formatter Feed} (opens : f.kind = .leftBrace) :
      ExternalTurn (braces, f) (.more (braces + 1, f.markDeclaration.openBrace))
  | rightBrace {braces : Int} {f : Formatter Feed} (closes : f.kind = .rightBrace) :
      ExternalTurn (braces, f) (.more (braces - 1, f.markDeclaration.closeBrace))
  | header {f : Formatter Feed} (closes : f.kind = .rightParen)
      (leaves : f.markDeclaration.advance.kind.goesOnWithDeclaration = false) :
      ExternalTurn (0, f) (.done (.header, f.markDeclaration.advance))
  | rightParen {braces : Int} {f : Formatter Feed} (closes : f.kind = .rightParen) :
      ExternalTurn (braces, f) (.more (braces, f.markDeclaration.advance))
  | assignment {braces : Int} {f : Formatter Feed} (assigns : f.kind = .assignment) :
      ExternalTurn (braces, f) (.more (braces, f.markDeclaration.expression .semicolon))
  | semicolon {braces : Int} {f : Formatter Feed} (inside : 0 < braces)
      (ends : f.kind = .semicolon) :
      ExternalTurn (braces, f) (.more (braces, f.markDeclaration.advance.endLine))
  | other {braces : Int} {f : Formatter Feed} (notEnd : f.kind ≠ .endOfFile)
      (noOpen : f.kind ≠ .leftBrace) (noClose : f.kind ≠ .rightBrace)
      (noParen : f.kind ≠ .rightParen) (noAssignment : f.kind ≠ .assignment)
      (noSemicolon : f.kind ≠ .semicolon) :
      ExternalTurn (braces, f) (.more (braces, f.markDeclaration.advance))

theorem externalTurn (state : Int × Formatter Feed) :
    ExternalTurn state (externalRound state) := by
  obtain ⟨braces, f⟩ := state
  simp only [externalRound]
  split
  · rename_i stops
    exact .stop (by simpa using stops)
  · rename_i continues
    rw [Bool.or_eq_true, Bool.and_eq_true, decide_eq_true_iff, decide_eq_true_iff,
      decide_eq_true_iff, not_or, not_and] at continues
    obtain ⟨inside, notEnd⟩ := continues
    rw [kind_markDeclaration]
    split
    · exact .leftBrace ‹_›
    · exact .rightBrace ‹_›
    · split
      · rename_i closes leaves
        rw [Bool.and_eq_true, decide_eq_true_iff, Bool.not_eq_true'] at leaves
        obtain ⟨rfl, leaves⟩ := leaves
        exact .header closes leaves
      · exact .rightParen ‹_›
    · exact .assignment ‹_›
    · rename_i ends
      exact .semicolon (Int.not_le.mp fun outside => inside outside ends) ends
    · exact .other notEnd ‹_› ‹_› ‹_› ‹_› ‹_›

/-- A loop whose steps consume tokens finishes. -/
theorem consuming_whileLoop {condition : Formatter Feed → Bool}
    {step : Formatter Feed → Formatter Feed}
    (progress : ∀ formatter, condition formatter = true →
      (step formatter).remaining < formatter.remaining) :
    Consuming remaining (whileRound condition step) (whileLoop condition step) := by
  have consumes {formatter next : Formatter Feed}
      (goes : whileRound condition step formatter = .more next) :
      next.remaining < formatter.remaining := by
    unfold whileRound at goes
    split at goes
    · rename_i holds
      rw [Round.more.injEq] at goes
      subst goes
      exact progress formatter holds
    · contradiction
  refine Consuming.ofTurns (repeatWhile condition step) consumes ?_
  intro budget formatter _
  rw [repeatWhile, whileRound]
  split <;> rfl

section While

variable {condition : Formatter Feed → Bool} {step loop : Formatter Feed → Formatter Feed}
variable (consuming : Consuming remaining (whileRound condition step) loop)
include consuming

/-- A loop whose condition does not hold is left. -/
theorem loop_of_not {formatter : Formatter Feed} (stops : condition formatter = false) :
    loop formatter = formatter :=
  consuming.eq_of_done (if_neg (by simp [stops]))

/-- A loop whose condition holds goes on behind one step. -/
theorem loop_of {formatter : Formatter Feed} (goes : condition formatter = true) :
    loop formatter = loop (step formatter) :=
  consuming.eq_of_more (if_pos goes)

end While

/-- A loop whose condition does not hold comes nowhere else. -/
theorem reaches_of_not {condition : Formatter Feed → Bool} {step : Formatter Feed → Formatter Feed}
    {formatter later : Formatter Feed} (stops : condition formatter = false)
    (reaches : Reaches (whileRound condition step) formatter later) : later = formatter :=
  reaches.of_done (if_neg (by simp [stops]))

/-! ## Loops over tokens -/

/-- A token that is not the end of an expression is consumed before the next round. -/
theorem expressionRound_lt {terminator : Category} {state next : InExpression Feed}
    (goes : expressionRound terminator state = .more next) :
    next.2.2.remaining < state.2.2.remaining := by
  obtain ⟨previous, braces, formatter⟩ := state
  have step (notEnd : formatter.kind ≠ .endOfFile) :
      (formatter.markExpression previous).advance.remaining < formatter.remaining :=
    remaining_advance (formatter.markExpression previous) notEnd
  have turn := expressionTurn terminator (previous, braces, formatter)
  rw [goes] at turn
  cases turn with
  | @parens _ _ _ inner _ opens reads _ =>
    have called := remaining_advance ((formatter.markExpression previous).markCall previous)
      (by simp [opens])
    simp only [remaining_markExpression, remaining_markCall] at called
    have shrinks : inner.remaining ≤
        ((formatter.markExpression previous).markCall previous).advance.remaining := by
      rw [reads]
      exact expression_shrinks .rightParen _
    exact Nat.lt_of_le_of_lt (remaining_advance_le inner) (Nat.lt_of_le_of_lt shrinks called)
  | leftBrace _ opens => exact step (by simp [opens])
  | rightBrace _ closes => exact step (by simp [closes])
  | other _ notEnd => exact step notEnd

/-- A unit of the budget of an expression is a round. -/
theorem expressionFrom_succ {terminator : Category} {budget : Nat} {state : InExpression Feed}
    (enough : state.2.2.remaining ≤ budget) :
    expressionFrom terminator state.1 state.2.1 (budget + 1) state.2.2 =
      (expressionRound terminator state).result
        fun later => expressionFrom terminator later.1 later.2.1 budget later.2.2 := by
  obtain ⟨previous, braces, formatter⟩ := state
  simp only [expressionRound, expressionFrom]
  split
  · rfl
  · rename_i continues
    have notEnd : ((formatter.markExpression previous).markCall previous).kind ≠ .endOfFile := by
      intro last
      rw [kind_markCall, kind_markExpression] at last
      simp [last] at continues
    have called := remaining_advance ((formatter.markExpression previous).markCall previous) notEnd
    simp only [remaining_markExpression, remaining_markCall] at called
    have inner :
        expressionFrom .rightParen .foreign 0 budget
            ((formatter.markExpression previous).markCall previous).advance =
          ((formatter.markExpression previous).markCall previous).advance.expression .rightParen :=
      expressionFrom_eq_of_lt _ _ _ (Nat.lt_of_lt_of_le called enough) (Nat.lt_succ_self _)
    rw [inner]
    cases (formatter.markExpression previous).kind with
    | leftParen =>
      dsimp only
      split <;> rfl
    | rightBrace => cases braces <;> rfl
    | _ => rfl

theorem consuming_expressionLoop (terminator : Category) :
    Consuming (fun state : InExpression Feed => state.2.2.remaining)
      (expressionRound terminator) (expressionLoop terminator) :=
  Consuming.ofTurns
    (fun budget state => expressionFrom terminator state.1 state.2.1 budget state.2.2)
    expressionRound_lt expressionFrom_succ

theorem markDeclaration_ne_end {f : Formatter Feed} {category : Category}
    (kind : f.kind = category) (notEnd : category ≠ .endOfFile) :
    f.markDeclaration.kind ≠ .endOfFile := by
  rwa [kind_markDeclaration, kind]

theorem declarationRound_lt {state next : Nat × Formatter Feed}
    (goes : declarationRound state = .more next) :
    next.2.remaining < state.2.remaining := by
  have turn := declarationTurn state
  rw [goes] at turn
  cases turn with
  | @leftBrace _ f opens =>
    exact @openBrace_lt f.markDeclaration (markDeclaration_ne_end opens (by decide))
  | @rightBrace _ f closes =>
    exact @closeBrace_lt f.markDeclaration (markDeclaration_ne_end closes (by decide))
  | @assignment _ f assigns => exact @initializer_lt f.markDeclaration assigns
  | @semicolon _ f ends =>
    exact remaining_advance f.markDeclaration (markDeclaration_ne_end ends (by decide))
  | @other _ f notEnd => exact remaining_advance f.markDeclaration notEnd

theorem consuming_declarationLoop :
    Consuming (fun state : Nat × Formatter Feed => state.2.remaining)
      declarationRound declarationLoop := by
  refine Consuming.ofTurns (fun budget state => declarationFrom state.1 budget state.2)
    declarationRound_lt ?_
  rintro budget ⟨braces, formatter⟩ _
  simp only [declarationRound, declarationFrom]
  split
  · rfl
  · cases formatter.markDeclaration.kind with
    | rightBrace => cases braces <;> rfl
    | _ => rfl

theorem externalRound_lt {state next : Int × Formatter Feed}
    (goes : externalRound state = .more next) :
    next.2.remaining < state.2.remaining := by
  have turn := externalTurn state
  rw [goes] at turn
  cases turn with
  | @leftBrace _ f opens =>
    exact @openBrace_lt f.markDeclaration (markDeclaration_ne_end opens (by decide))
  | @rightBrace _ f closes =>
    exact @closeBrace_lt f.markDeclaration (markDeclaration_ne_end closes (by decide))
  | @rightParen _ f closes =>
    exact remaining_advance f.markDeclaration (markDeclaration_ne_end closes (by decide))
  | @assignment _ f assigns => exact @initializer_lt f.markDeclaration assigns
  | @semicolon _ f _ ends =>
    exact remaining_advance f.markDeclaration (markDeclaration_ne_end ends (by decide))
  | @other _ f notEnd => exact remaining_advance f.markDeclaration notEnd

theorem consuming_externalLoop :
    Consuming (fun state : Int × Formatter Feed => state.2.remaining)
      externalRound externalLoop := by
  refine Consuming.ofTurns (fun budget state => externalFrom state.1 budget state.2)
    externalRound_lt ?_
  rintro budget ⟨braces, formatter⟩ _
  simp only [externalRound, externalFrom]
  split
  · rfl
  · cases formatter.markDeclaration.kind with
    | rightParen =>
      dsimp only
      split <;> rfl
    | _ => rfl

end Formatter

end CListing
