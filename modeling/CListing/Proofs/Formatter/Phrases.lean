import CListing.Proofs.Formatter.Calls
import CListing.Proofs.Formatter.Drafts

/-!
# Expressions and declarations in drafts

Expressions and declarations are read in one row. An expression whose parentheses are balanced is
read up to its terminator, on every level of parentheses. The initializer of a declaration is an
expression that may begin inside parentheses, so a closing parenthesis is an ordinary token there.
-/

namespace CListing

/-- The tokens are read as an expression up to the terminator: every opening parenthesis has its
partner, and no brace and no terminator stands between those groups. -/
inductive Readable : Category → List Item → Prop
  | nil {terminator : Category} : Readable terminator []
  | token {terminator : Category} {item : Item} {rest : List Item}
      (notLast : item.category ≠ terminator) (noParen : item.category ≠ .leftParen)
      (noBrace : item.category ≠ .leftBrace ∧ item.category ≠ .rightBrace)
      (later : Readable terminator rest) : Readable terminator (item :: rest)
  | group {terminator : Category} {opening closing : Item} {inner rest : List Item}
      (notLast : .leftParen ≠ terminator) (opens : opening.category = .leftParen)
      (closes : closing.category = .rightParen) (inside : Readable .rightParen inner)
      (later : Readable terminator rest) :
      Readable terminator (opening :: (inner ++ closing :: rest))

namespace Item

variable {allowed : Category → Bool} {terminator : Category} {depth : Nat} {items : List Item}

theorem balanced_leftParen {opening : Item} (opens : opening.category = .leftParen) :
    balanced allowed terminator depth (opening :: items) =
      balanced allowed terminator (depth + 1) items :=
  if_pos opens

theorem balanced_rightParen {closing : Item} (closes : closing.category = .rightParen) :
    balanced allowed terminator depth (closing :: items) =
      (0 < depth && balanced allowed terminator (depth - 1) items) := by
  rw [balanced, if_neg (by simp [closes]), if_pos closes]

theorem balanced_token {item : Item} (noOpen : item.category ≠ .leftParen)
    (noClose : item.category ≠ .rightParen) :
    balanced allowed terminator depth (item :: items) =
      (allowed item.category && (0 < depth || item.category ≠ terminator) &&
        balanced allowed terminator depth items) := by
  rw [balanced, if_neg noOpen, if_neg noClose]

/-- Behind a token of balanced ones the others are balanced, for some number of open
parentheses. -/
theorem balanced_cons {item : Item}
    (balance : balanced allowed terminator depth (item :: items) = true) :
    (item.category = .leftParen ∨ item.category = .rightParen ∨ allowed item.category = true) ∧
      ∃ later, balanced allowed terminator later items = true := by
  by_cases opens : item.category = .leftParen
  · rw [balanced_leftParen opens] at balance
    exact ⟨Or.inl opens, _, balance⟩
  by_cases closes : item.category = .rightParen
  · rw [balanced_rightParen closes, Bool.and_eq_true] at balance
    exact ⟨Or.inr (Or.inl closes), _, balance.2⟩
  · rw [balanced_token opens closes, Bool.and_eq_true, Bool.and_eq_true] at balance
    exact ⟨Or.inr (Or.inr balance.1.1), _, balance.2⟩

/-- A parenthesis that is open is closed, by the first token behind a balanced part. -/
theorem exists_closing {outer inside : Nat}
    (balance : balanced allowed terminator (outer + 1 + inside) items = true) :
    ∃ inner closing rest, items = inner ++ closing :: rest ∧ closing.category = .rightParen ∧
      balanced allowed .rightParen inside inner = true ∧
        balanced allowed terminator outer rest = true := by
  induction items generalizing inside with
  | nil => simp [balanced] at balance
  | cons item items ih =>
    by_cases opens : item.category = .leftParen
    · rw [balanced_leftParen opens] at balance
      obtain ⟨inner, closing, rest, rfl, closes, balanced, after⟩ := @ih (inside + 1) balance
      refine ⟨item :: inner, closing, rest, rfl, closes, ?_, after⟩
      rwa [balanced_leftParen opens]
    by_cases own : item.category = .rightParen
    · cases inside with
      | zero =>
        rw [balanced_rightParen own, Bool.and_eq_true] at balance
        exact ⟨[], item, items, rfl, own, rfl, balance.2⟩
      | succ inside =>
        rw [balanced_rightParen own, Bool.and_eq_true] at balance
        obtain ⟨inner, closing, rest, rfl, closes, balanced, after⟩ := ih balance.2
        refine ⟨item :: inner, closing, rest, rfl, closes, ?_, after⟩
        simpa [balanced_rightParen own] using balanced
    · rw [balanced_token opens own, Bool.and_eq_true, Bool.and_eq_true] at balance
      obtain ⟨inner, closing, rest, rfl, closes, balanced, after⟩ := ih balance.2
      refine ⟨item :: inner, closing, rest, rfl, closes, ?_, after⟩
      rw [balanced_token opens own, balance.1.1, balanced]
      simp [own]

/-- Balanced tokens are read up to the terminator; inside parentheses too, if they are without
it. -/
theorem readable_of_balanced (excluded : ∀ category, allowed category = true →
      category ≠ .leftBrace ∧ category ≠ .rightBrace) (notLast : .leftParen ≠ terminator)
    (inside : 0 < depth → allowed terminator = false ∧ .rightParen ≠ terminator)
    (balance : balanced allowed terminator depth items = true) : Readable terminator items := by
  induction length : items.length using Nat.strongRecOn generalizing items depth terminator with
  | _ size ih =>
    subst length
    cases items with
    | nil => exact Readable.nil
    | cons item items =>
      by_cases opens : item.category = .leftParen
      · rw [balanced_leftParen opens] at balance
        obtain ⟨inner, closing, rest, rfl, closes, balanced, after⟩ :=
          @exists_closing _ _ _ depth 0 balance
        have shorter : inner.length < (item :: (inner ++ closing :: rest)).length ∧
            rest.length < (item :: (inner ++ closing :: rest)).length := by
          simp only [List.length_cons, List.length_append]
          omega
        exact Readable.group notLast opens closes
          (ih _ shorter.1 (by decide) (fun contrary => absurd contrary (by decide)) balanced rfl)
          (ih _ shorter.2 notLast inside after rfl)
      have shorter : items.length < (item :: items).length := Nat.lt_succ_self _
      by_cases own : item.category = .rightParen
      · rw [balanced_rightParen own, Bool.and_eq_true, decide_eq_true_iff] at balance
        have apart := inside balance.1
        refine Readable.token ?_ opens ?_ (ih _ shorter notLast (fun _ => apart) balance.2 rfl)
        · rw [own]
          exact apart.2
        · rw [own]
          decide
      · rw [balanced_token opens own, Bool.and_eq_true, Bool.and_eq_true] at balance
        refine Readable.token ?_ opens (excluded _ balance.1.1)
          (ih _ shorter notLast inside balance.2 rfl)
        intro last
        by_cases open_parens : 0 < depth
        · have absent := (inside open_parens).1
          rw [← last, balance.1.1] at absent
          contradiction
        · simp [open_parens, last] at balance

/-- An expression is read up to its terminator. -/
theorem readable_of_isExpression (notLast : .leftParen ≠ terminator)
    (isExpression : Item.isExpression terminator items = true) : Readable terminator items := by
  refine readable_of_balanced ?_ notLast (fun contrary => absurd contrary (by decide)) isExpression
  intro category allowed
  simp only [Category.inExpression, Bool.and_eq_true, decide_eq_true_iff] at allowed
  exact ⟨allowed.1.2, allowed.2⟩

end Item

/-! ## Marks -/

section Marks

variable {previous : Category} {inner rest : List Item}

theorem markInExpression_of_ne {item : Item} (noParen : item.category ≠ .leftParen)
    (previous : Category) :
    item.markInExpression previous = item.mark (item.category.expressionSpacing previous) := by
  rw [Item.markInExpression, if_neg (by simp [noParen]), Spacing.merge_free]

/-- A closing parenthesis has no marks from its place. -/
theorem markInExpression_rightParen {closing : Item} (closes : closing.category = .rightParen)
    (previous : Category) : closing.markInExpression previous = closing.mark .free := by
  rw [markInExpression_of_ne (by simp [closes]), closes]
  rfl

/-- Behind an opening parenthesis an expression begins anew. -/
theorem expressionMarks_leftParen (items : List Item) :
    expressionMarks .leftParen items = expressionMarks .foreign items := by
  cases items with
  | nil => rfl
  | cons item items => rfl

theorem expressionMarks_append_cons {closing : Item} (closes : closing.category = .rightParen) :
    expressionMarks previous (inner ++ closing :: rest) =
      expressionMarks previous inner ++ closing.mark .free :: expressionMarks .rightParen rest := by
  induction inner generalizing previous with
  | nil =>
    show closing.markInExpression previous :: expressionMarks closing.category rest = _
    rw [markInExpression_rightParen closes, closes]
    rfl
  | cons item inner ih => exact congrArg (item.markInExpression previous :: ·) ih

end Marks

namespace Formatter

open Round

variable {base formatter : Formatter Feed} {ahead rest : Feed} {level : Nat} {row : List Mark}
variable {lines : List PlannedLine} {terminator previous : Category} {tokens : List Item}

/-! ## Rounds of expressions -/

theorem expression_eq (formatter : Formatter Feed) (terminator : Category) :
    formatter.expression terminator = expressionLoop terminator (.foreign, 0, formatter) :=
  rfl

theorem expressionRound_of_ne (notLast : formatter.kind ≠ terminator)
    (notEnd : formatter.kind ≠ .endOfFile) (noParen : formatter.kind ≠ .leftParen)
    (noOpen : formatter.kind ≠ .leftBrace) (noClose : formatter.kind ≠ .rightBrace)
    (braces : Nat) :
    expressionRound terminator (previous, braces, formatter) =
      .more (formatter.kind, braces, (formatter.markExpression previous).advance) := by
  have same : (formatter.markExpression previous).kind = formatter.kind := rfl
  simp only [expressionRound]
  rw [if_neg (by simp [notLast, notEnd])]
  rw [← same] at noParen noOpen noClose ⊢
  generalize formatter.markExpression previous = formatter at noParen noOpen noClose ⊢
  cases category : formatter.kind <;> first | contradiction | rfl

theorem expressionRound_of_token (notLast : formatter.kind ≠ terminator)
    (notEnd : formatter.kind ≠ .endOfFile) (noParen : formatter.kind ≠ .leftParen)
    (noBrace : formatter.kind ≠ .leftBrace ∧ formatter.kind ≠ .rightBrace) :
    expressionRound terminator (previous, 0, formatter) =
      .more (formatter.kind, 0,
        (formatter.adjust (formatter.kind.expressionSpacing previous)).advance) :=
  expressionRound_of_ne notLast notEnd noParen noBrace.1 noBrace.2 0

theorem expressionRound_of_leftParen (notLast : .leftParen ≠ terminator)
    (opens : formatter.kind = .leftParen) :
    expressionRound terminator (previous, 0, formatter) =
      let inner := (formatter.adjust ((Category.leftParen.expressionSpacing previous).merge
        (if previous.isName then .left else .free))).advance.expression .rightParen
      if inner.kind = .rightParen then .more (.rightParen, 0, inner.advance)
      else .done (inner.reportMissing .rightParen) := by
  have marked : formatter.adjust ((Category.leftParen.expressionSpacing previous).merge
        (if previous.isName then .left else .free)) =
      (formatter.markExpression previous).markCall previous := by
    obtain ⟨cursor, token⟩ := formatter
    rw [markCall, markExpression, opens]
    simp only [adjust, Cursor.markExpression, Cursor.adjust, Spacing.merge_assoc]
    split
    · rfl
    · rw [Spacing.merge_free]
  have same : (formatter.markExpression previous).kind = .leftParen := opens
  simp only [expressionRound]
  rw [if_neg (by simp [notLast, opens]), marked, same]

/-- An expression goes to the row. -/
theorem Drafts.expressionLoop (readable : Readable terminator tokens)
    (drafts : Drafts base formatter ahead ⟨level, row, lines⟩)
    (supplies : ahead.Supplies tokens rest) (stops : rest.kind = terminator)
    (goesOn : rest.kind ≠ .endOfFile) (previous : Category) :
    Drafts base (Formatter.expressionLoop terminator (previous, 0, formatter)) rest
      ⟨level, row ++ expressionMarks previous tokens, lines⟩ := by
  induction readable generalizing formatter ahead rest row previous with
  | @nil terminator =>
    have here := drafts.stands.kind
    cases supplies with
    | nil _ =>
      rw [(consuming_expressionLoop terminator).turn, expressionRound,
        if_pos (by simp [here, stops])]
      simpa [expressionMarks, result] using drafts
  | @token terminator item items notLast noParen noBrace later ih =>
    have here := drafts.stands.kind.trans supplies.kind_eq
    have notEnd := drafts.stands.kind.trans_ne supplies.kind_ne_end_of_cons
    obtain ⟨next, own, later_supplies⟩ := supplies.cons_split
    have read := drafts.read own (later_supplies.kind_ne_end goesOn)
      (item.category.expressionSpacing previous)
    rw [(consuming_expressionLoop terminator).turn,
      expressionRound_of_token (by rwa [here]) notEnd (by rwa [here]) (by rwa [here]), here]
    have final := ih read later_supplies stops goesOn item.category
    rwa [← markInExpression_of_ne noParen, List.append_assoc] at final
  | @group terminator opening closing inner items notLast opens closes _ _ inside_ih later_ih =>
    have here := drafts.stands.kind.trans (supplies.kind_eq.trans opens)
    obtain ⟨called, own, inner_supplies⟩ := supplies.cons_split
    have read := drafts.read own (inner_supplies.kind_ne_end goesOn)
      ((Category.leftParen.expressionSpacing previous).merge
        (if previous.isName then .left else .free))
    obtain ⟨middle, inside, behind⟩ := inner_supplies.split
    have closed := inside_ih read inside (behind.kind_eq.trans closes)
      behind.kind_ne_end_of_cons .foreign
    rw [← expression_eq] at closed
    obtain ⟨next, last, later_supplies⟩ := behind.cons_split
    have after := closed.advance last (later_supplies.kind_ne_end goesOn)
    have final := later_ih after later_supplies stops goesOn .rightParen
    rw [(consuming_expressionLoop terminator).turn, expressionRound_of_leftParen notLast here]
    dsimp only
    rw [if_pos (closed.stands.kind.trans (behind.kind_eq.trans closes))]
    have marks : opening.mark ((Category.leftParen.expressionSpacing previous).merge
        (if previous.isName then .left else .free)) :: (expressionMarks .foreign inner ++
          closing.mark .free :: expressionMarks .rightParen items) =
        expressionMarks previous (opening :: (inner ++ closing :: items)) := by
      rw [expressionMarks, opens, expressionMarks_append_cons closes, expressionMarks_leftParen,
        Item.markInExpression, opens]
      simp
    rw [← marks, Round.result]
    simpa using final

/-- An expression before its terminator goes to the row. -/
theorem Drafts.expression (isExpression : Item.isExpression terminator tokens = true)
    (drafts : Drafts base formatter ahead ⟨level, row, lines⟩)
    (supplies : ahead.Supplies tokens rest) (stops : rest.kind = terminator)
    (goesOn : rest.kind ≠ .endOfFile) (notLast : .leftParen ≠ terminator) :
    Drafts base (formatter.expression terminator) rest
      ⟨level, row ++ expressionMarks .foreign tokens, lines⟩ :=
  drafts.expressionLoop (Item.readable_of_isExpression notLast isExpression) supplies stops goesOn
    .foreign

/-- An expression in parentheses goes to the row. -/
theorem Drafts.parenthesized (isExpression : Item.isExpression .rightParen tokens = true)
    (drafts : Drafts base formatter ahead ⟨level, row, lines⟩)
    (supplies : ahead.Supplies (.fixed .leftParen :: (tokens ++ [.fixed .rightParen])) rest)
    (goesOn : rest.kind ≠ .endOfFile) :
    Drafts base formatter.parenthesized rest
      ⟨level, row ++ ((Item.fixed .leftParen).mark .free ::
        (expressionMarks .foreign tokens ++ [(Item.fixed .rightParen).mark .free])), lines⟩ := by
  have here : formatter.kind = .leftParen := drafts.stands.kind.trans supplies.kind_eq
  obtain ⟨opened, own, inner⟩ := supplies.cons_split
  have read := drafts.advance own (inner.kind_ne_end goesOn)
  obtain ⟨middle, inside, behind⟩ := inner.split
  have expression := read.expression isExpression inside behind.kind_eq
    behind.kind_ne_end_of_cons (by decide)
  have closed := expression.expect behind goesOn
  rw [Formatter.parenthesized, if_pos here]
  simpa using closed

/-- A keyword with an expression in parentheses goes to the row. -/
theorem Drafts.header {keyword : Item}
    (isExpression : Item.isExpression .rightParen tokens = true)
    (drafts : Drafts base formatter ahead ⟨level, row, lines⟩)
    (supplies : ahead.Supplies (CListing.header keyword tokens) rest)
    (goesOn : rest.kind ≠ .endOfFile) :
    Drafts base formatter.advance.parenthesized rest
      ⟨level, row ++ headerMarks keyword tokens, lines⟩ := by
  obtain ⟨next, own, later⟩ := supplies.cons_split
  have read := drafts.advance own later.kind_ne_end_of_cons
  have condition := read.parenthesized isExpression later goesOn
  simpa [headerMarks] using condition

/-- The semicolon of a statement ends its row. -/
theorem Drafts.endStatement (drafts : Drafts base formatter ahead ⟨level, row, lines⟩)
    (supplies : ahead.Supplies [.fixed .semicolon] rest) :
    Drafts base formatter.endStatement rest
      ⟨level, [], lines ++ [.row level (row ++ [(Item.fixed .semicolon).mark .free])]⟩ :=
  drafts.expectLast supplies

/-! ## Declarations -/

theorem declarationRound_of_token (notLast : formatter.kind ≠ .semicolon)
    (notEnd : formatter.kind ≠ .endOfFile) (noAssignment : formatter.kind ≠ .assignment)
    (noBrace : formatter.kind ≠ .leftBrace ∧ formatter.kind ≠ .rightBrace) :
    declarationRound (0, formatter) =
      .more (0, (formatter.adjust formatter.kind.declarationSpacing).advance) := by
  have marked : formatter.adjust formatter.kind.declarationSpacing = formatter.markDeclaration :=
    rfl
  have same : formatter.markDeclaration.kind = formatter.kind := rfl
  simp only [declarationRound]
  rw [if_neg (by simp [notLast, notEnd]), marked]
  rw [← same] at notLast noAssignment noBrace
  generalize formatter.markDeclaration = formatter at notLast noAssignment noBrace ⊢
  cases category : formatter.kind with
  | leftBrace => exact absurd category noBrace.1
  | rightBrace => exact absurd category noBrace.2
  | assignment => contradiction
  | semicolon => contradiction
  | _ => rfl

theorem declarationRound_of_assignment (assigns : formatter.kind = .assignment) :
    declarationRound (0, formatter) = .more (0, formatter.expression .semicolon) := by
  have marked : formatter.markDeclaration = formatter := by
    obtain ⟨cursor, token⟩ := formatter
    rw [markDeclaration, assigns]
    exact adjust_free _
  simp only [declarationRound]
  rw [if_neg (by simp [assigns]), marked, assigns]

theorem declarationRound_of_semicolon (ends : formatter.kind = .semicolon) :
    declarationRound (0, formatter) = .done formatter := by
  simp [declarationRound, ends]

/-- The tokens of a declaration go to the row. -/
theorem Drafts.declarationLoop {depth : Nat}
    (balance : Item.balanced Category.inDeclaration .semicolon depth tokens = true)
    (drafts : Drafts base formatter ahead ⟨level, row, lines⟩)
    (supplies : ahead.Supplies tokens rest) (stops : rest.kind = .semicolon) :
    Drafts base (Formatter.declarationLoop (0, formatter)) rest
      ⟨level, row ++ declarationMarks tokens, lines⟩ := by
  have goesOn : rest.kind ≠ .endOfFile := by simp [stops]
  induction tokens generalizing depth formatter ahead row with
  | nil =>
    have here := drafts.stands.kind
    cases supplies with
    | nil _ =>
      rw [consuming_declarationLoop.turn, declarationRound_of_semicolon (here.trans stops)]
      simpa [declarationMarks, result] using drafts
  | cons item tokens ih =>
    have here := drafts.stands.kind.trans supplies.kind_eq
    rw [consuming_declarationLoop.turn]
    by_cases assigns : item.category = .assignment
    · -- From here on the tokens are an expression, whatever parentheses are open.
      have readable : Readable .semicolon (item :: tokens) := by
        refine Item.readable_of_balanced ?_ (by decide) (fun _ => ⟨rfl, by decide⟩) balance
        intro category allowed
        simp only [Category.inDeclaration, Bool.and_eq_true, decide_eq_true_iff] at allowed
        exact allowed.1
      have read := drafts.expressionLoop readable supplies stops goesOn .foreign
      rw [← expression_eq] at read
      rw [declarationRound_of_assignment (here.trans assigns), Round.result,
        consuming_declarationLoop.turn,
        declarationRound_of_semicolon (read.stands.kind.trans stops), declarationMarks,
        if_pos assigns]
      exact read
    · obtain ⟨category, later, balance⟩ := Item.balanced_cons balance
      have plain : item.category ≠ .semicolon ∧
          item.category ≠ .leftBrace ∧ item.category ≠ .rightBrace := by
        rcases category with opens | closes | allowed
        · rw [opens]
          decide
        · rw [closes]
          decide
        · simp only [Category.inDeclaration, Bool.and_eq_true, decide_eq_true_iff] at allowed
          exact ⟨allowed.2, allowed.1⟩
      have notEnd := drafts.stands.kind.trans_ne supplies.kind_ne_end_of_cons
      obtain ⟨next, own, later_supplies⟩ := supplies.cons_split
      have read := drafts.read own (later_supplies.kind_ne_end goesOn)
        item.category.declarationSpacing
      rw [declarationRound_of_token (by rw [here]; exact plain.1) notEnd (by rwa [here])
        (by rw [here]; exact plain.2), here, declarationMarks, if_neg assigns, Round.result]
      simpa using ih balance read later_supplies

/-- A declaration becomes a row. -/
theorem Drafts.declaration {declaration : Declaration} (wellFormed : declaration.wellFormed = true)
    (drafts : Drafts base formatter ahead ⟨level, [], lines⟩)
    (supplies : ahead.Supplies declaration.items rest) :
    Drafts base formatter.declaration rest
      ⟨level, [], lines ++ [.row level declaration.marks]⟩ := by
  rw [Declaration.wellFormed, Bool.and_eq_true] at wellFormed
  obtain ⟨starts, balance⟩ := wellFormed
  have whole : Item.balanced Category.inDeclaration .semicolon 0
      (declaration.starter :: declaration.tokens) = true := by
    have plain : ∀ category : Category, category.startsDeclaration = true →
        category ≠ .leftParen ∧ category ≠ .rightParen ∧ category.inDeclaration = true ∧
          category ≠ .semicolon := by
      intro category starts
      cases category <;> first | decide | contradiction
    obtain ⟨noOpen, noClose, allowed, notLast⟩ := plain _ starts
    rw [Item.balanced_token noOpen noClose, allowed, balance]
    simp [notLast]
  have parts : declaration.items =
      (declaration.starter :: declaration.tokens) ++ [.fixed .semicolon] := rfl
  rw [parts] at supplies
  obtain ⟨middle, inside, behind⟩ := supplies.split
  have read := drafts.declarationLoop whole inside behind.kind_eq
  exact read.expectLast behind

/-- Declarations become rows. -/
theorem Drafts.declarations {declarations : List Declaration}
    (wellFormed : declarations.all (·.wellFormed) = true)
    (drafts : Drafts base formatter ahead ⟨level, [], lines⟩)
    (supplies : ahead.Supplies (declarations.flatMap Declaration.items) rest)
    (stops : rest.kind.startsDeclaration = false) :
    Drafts base formatter.declarations rest
      ⟨level, [],
        lines ++ declarations.map fun declaration => .row level declaration.marks⟩ := by
  induction declarations generalizing formatter ahead lines with
  | nil =>
    have here := drafts.stands.kind
    cases supplies with
    | nil _ =>
      have ends : formatter.declarations = formatter :=
        loop_of_not Call.consuming_declarations (by rw [here, stops])
      rw [ends]
      simpa using drafts
  | cons declaration declarations ih =>
    rw [List.all_cons, Bool.and_eq_true] at wellFormed
    rw [List.flatMap_cons] at supplies
    obtain ⟨middle, first, later⟩ := supplies.split
    have starts : formatter.kind.startsDeclaration = true := by
      rw [drafts.stands.kind.trans first.kind_eq]
      exact (Bool.and_eq_true_iff.mp wellFormed.1).1
    have goes : formatter.declarations = formatter.declaration.declarations :=
      loop_of Call.consuming_declarations starts
    rw [goes]
    simpa using ih wellFormed.2 (drafts.declaration wellFormed.1 first) later

/-- The declarations of a block become rows with an empty line behind them. -/
theorem Drafts.blockDeclarations {declarations : List Declaration}
    (wellFormed : declarations.all (·.wellFormed) = true)
    (drafts : Drafts base formatter ahead ⟨level, [], lines⟩)
    (supplies : ahead.Supplies (declarations.flatMap Declaration.items) rest)
    (stops : rest.kind.startsDeclaration = false) :
    Drafts base formatter.blockDeclarations rest
      ⟨level, [], lines ++ (declarations.map (fun declaration => .row level declaration.marks) ++
        if declarations.isEmpty then [] else [.gap])⟩ := by
  cases declarations with
  | nil =>
    have here := drafts.stands.kind
    cases supplies with
    | nil _ =>
      rw [Formatter.blockDeclarations, if_neg (by rw [here, stops]; decide)]
      simpa using drafts
  | cons declaration declarations =>
    have read := drafts.declarations wellFormed supplies stops
    rw [List.all_cons, Bool.and_eq_true] at wellFormed
    rw [List.flatMap_cons] at supplies
    obtain ⟨middle, first, _⟩ := supplies.split
    have starts : formatter.kind.startsDeclaration = true := by
      rw [drafts.stands.kind.trans first.kind_eq]
      exact (Bool.and_eq_true_iff.mp wellFormed.1).1
    rw [Formatter.blockDeclarations, if_pos starts]
    simpa using read.perform Draft.Step.skipLine

/-- A label of a `switch` becomes a row. -/
theorem Drafts.caseLabel {label : CaseLabel} (wellFormed : label.wellFormed = true)
    (drafts : Drafts base formatter ahead ⟨level, [], lines⟩)
    (supplies : ahead.Supplies (label.tokens ++ [.fixed .colon]) rest) :
    Drafts base formatter.caseLabel rest ⟨level, [], lines ++ [.row level label.marks]⟩ := by
  obtain ⟨middle, inside, behind⟩ := supplies.split
  have readable : Readable .colon label.tokens := by
    cases label with
    | ofValue value =>
      exact Readable.token (by decide) (by decide) (by decide)
        (Item.readable_of_isExpression (by decide) wellFormed)
    | otherwise => exact Readable.token (by decide) (by decide) (by decide) Readable.nil
  have read := drafts.expressionLoop readable inside behind.kind_eq behind.kind_ne_end_of_cons
    .foreign
  rw [← expression_eq] at read
  have here : ((formatter.expression .colon).adjust .left).kind = .colon :=
    read.stands.kind.trans behind.kind_eq
  rw [Formatter.caseLabel, expect_of_kind here]
  exact read.readLast behind .left

end Formatter

end CListing
