import CListing.Proofs.Formatter.Braces

/-!
# Braces in expressions and declarations

What an expression leaves open are the braces of its own that are open at its terminator and those
that the expressions in parentheses inside it lose. A declaration ends with no brace of its own
open, unless the source ends; so it leaves open what its initializers lose.
-/

namespace CListing.Formatter

open Round

/-! ## Expressions -/

/-- A round of an expression reads the expression in parentheses that begins there. -/
def InnerOf (terminator : Category) : InExpression Feed → Formatter Feed → Prop
  | (previous, _, f), called =>
    f.kind ≠ terminator ∧ f.kind = .leftParen ∧
      called = ((f.markExpression previous).markCall previous).advance

section Expressions

variable {terminator : Category} {state next : InExpression Feed} {result : Formatter Feed}
variable {keeps : Formatter Feed → Prop}

/-- The expression in parentheses is taken with the mark before it. -/
theorem takes_inner {previous : Category} {left : Nat} (opens : f.kind = .leftParen)
    (takes : Takes 0 ((f.markExpression previous).markCall previous).advance left result)
    (braces : Nat) : Takes braces f (braces + left) result := by
  have step := @Takes.advance_plain ((f.markExpression previous).markCall previous)
    (by simp [opens, Category.isPlain]) 0
  rw [Takes, ahead_markCall, ahead_markExpression] at step
  have whole := (Takes.trans (f := f) step takes).deeper braces
  rwa [Nat.zero_add, Nat.add_comm] at whole

/-- The last round leaves open what was open, and what an expression inside it loses. -/
theorem takes_of_done (leaves : expressionRound terminator state = .done result)
    (inner : ∀ called, InnerOf terminator state called →
      ∃ left, Takes 0 called left (called.expression .rightParen) ∧ (left = 0 → keeps called)) :
    ∃ left, Takes state.2.1 state.2.2 left result ∧
      (left = 0 → ∀ called, InnerOf terminator state called → keeps called) := by
  have turn := expressionTurn terminator state
  rw [leaves] at turn
  cases turn with
  | @stop _ braces _ stops =>
    refine ⟨braces, .nothing rfl braces, ?_⟩
    rintro _ called ⟨goes, opens, _⟩
    rcases stops with stops | ends
    · exact absurd stops goes
    · exact absurd (opens.symm.trans ends) (by decide)
  | @missing _ braces _ _ goes opens reads _ =>
    obtain ⟨lost, takes, keepsIf⟩ := inner _ ⟨goes, opens, rfl⟩
    rw [← reads] at takes
    refine ⟨braces + lost, takes_inner opens takes braces, ?_⟩
    rintro none_left called ⟨_, _, rfl⟩
    exact keepsIf (Nat.eq_zero_of_add_eq_zero_left none_left)
  | unmatched _ closes =>
    refine ⟨0, .nothing rfl 0, ?_⟩
    rintro _ called ⟨_, opens, _⟩
    exact absurd (opens.symm.trans closes) (by decide)

/-- A round that is not the last one leaves open what the next one begins with, and what an
expression inside it loses. -/
theorem takes_of_more (goes : expressionRound terminator state = .more next)
    (inner : ∀ called, InnerOf terminator state called →
      ∃ left, Takes 0 called left (called.expression .rightParen) ∧ (left = 0 → keeps called)) :
    ∃ lost, Takes state.2.1 state.2.2 (next.2.1 + lost) next.2.2 ∧
      (lost = 0 → ∀ called, InnerOf terminator state called → keeps called) := by
  have noInner {previous : Category} {braces : Nat} {f : Formatter Feed}
      (noParen : f.kind ≠ .leftParen) :
      0 = 0 → ∀ called, InnerOf terminator (previous, braces, f) called → keeps called := by
    rintro _ called ⟨_, opens, _⟩
    exact absurd opens noParen
  have turn := expressionTurn terminator state
  rw [goes] at turn
  cases turn with
  | @parens _ braces _ _ notLast opens reads closes =>
    obtain ⟨lost, takes, keepsIf⟩ := inner _ ⟨notLast, opens, rfl⟩
    rw [← reads] at takes
    have last := @Takes.advance_plain _ (by rw [closes]; rfl) lost
    refine ⟨lost, takes_inner opens (takes.trans last) braces, ?_⟩
    rintro none_lost called ⟨_, _, rfl⟩
    exact keepsIf none_lost
  | @leftBrace previous braces f _ opens =>
    refine ⟨0, @Takes.advance_leftBrace (f.markExpression previous) opens braces, ?_⟩
    exact noInner (by simp [opens])
  | @rightBrace previous outer f _ closes =>
    refine ⟨0, @Takes.advance_rightBrace (f.markExpression previous) closes outer, ?_⟩
    exact noInner (by simp [closes])
  | @other previous braces f _ notEnd noParen noOpen noClose =>
    have plain := Category.isPlain_of_ne noOpen noClose notEnd
    exact ⟨0, @Takes.advance_plain (f.markExpression previous) plain braces, noInner noParen⟩

/-- What an expression leaves open are the braces of its own and those that the expressions in
parentheses inside it lose. -/
theorem takes_expressionLoop (finishes : Finishes (expressionRound terminator) state result)
    (inner : ∀ later, Reaches (expressionRound terminator) state later →
      ∀ called, InnerOf terminator later called →
        ∃ left, Takes 0 called left (called.expression .rightParen) ∧ (left = 0 → keeps called)) :
    ∃ left, Takes state.2.1 state.2.2 left result ∧
      (left = 0 → ∀ later, Reaches (expressionRound terminator) state later →
        ∀ called, InnerOf terminator later called → keeps called) := by
  induction finishes with
  | @done state result leaves =>
    obtain ⟨left, takes, here⟩ := takes_of_done leaves (inner state (.here state))
    refine ⟨left, takes, fun none_left later reaches => ?_⟩
    rw [reaches.of_done leaves]
    exact here none_left
  | @more state next result goes after ih =>
    obtain ⟨lost, takes, here⟩ := takes_of_more goes (inner state (.here state))
    obtain ⟨left, takesMore, there⟩ := ih fun later reaches => inner later (.more goes reaches)
    refine ⟨left + lost, takes.trans (takesMore.deeper lost), fun none_left later reaches => ?_⟩
    cases reaches with
    | here => exact here (Nat.eq_zero_of_add_eq_zero_left none_left)
    | more goesToo reachesMore =>
      obtain rfl := Round.more.inj (goes.symm.trans goesToo)
      exact there (Nat.eq_zero_of_add_eq_zero_right none_left) later reachesMore

end Expressions

/-- An expression in parentheses, or what is read instead. -/
theorem nests_parenthesized {f : Formatter Feed} {kept : Prop}
    (inner : f.kind = .leftParen → Nests 0 kept f.advance (f.advance.expression .rightParen)) :
    Nests 0 (f.kind = .leftParen → kept) f f.parenthesized := by
  unfold parenthesized
  split
  · rename_i opens
    have first : Takes 0 f 0 f.advance := .advance_plain (by rw [opens]; rfl) 0
    refine ((Nests.after first (inner opens)).before (.expect rfl 0)).congr ?_
    exact ⟨fun kept _ => kept, fun kept => kept opens⟩
  · rename_i missing
    exact .of_takes (.nothing rfl 0) fun opens => absurd opens missing

theorem takes_endStatement (f : Formatter Feed) : Takes 0 f 0 f.endStatement :=
  .expect rfl 0

/-! ## Declarations -/

/-- The initializer that a round of a declaration reads. -/
def InitializerOf : Nat × Formatter Feed → Formatter Feed → Prop
  | (_, f), initializer => f.kind = .assignment ∧ initializer = f.markDeclaration

section Declarations

variable {state next : Nat × Formatter Feed} {result : Formatter Feed}
variable {keeps : Formatter Feed → Prop}

/-- A declaration is left with no brace open, or at the end of the source. -/
theorem nests_of_done (leaves : declarationRound state = .done result) :
    Nests state.1 (∀ initializer, InitializerOf state initializer → keeps initializer) state.2
      result := by
  have turn := declarationTurn state
  rw [leaves] at turn
  cases turn with
  | @stop braces _ stops =>
    have none_read : ∀ initializer, InitializerOf (braces, result) initializer →
        keeps initializer := by
      rintro initializer ⟨assigns, _⟩
      rcases stops with ⟨_, semicolon⟩ | last
      · exact absurd (assigns.symm.trans semicolon) (by decide)
      · exact absurd (assigns.symm.trans last) (by decide)
    refine ⟨braces, .nothing rfl braces, ?_⟩
    rcases stops with ⟨none_open, _⟩ | last
    · exact Or.inl (iff_of_true none_open none_read)
    · by_cases none_open : braces = 0
      · exact Or.inl (iff_of_true none_open none_read)
      · exact Or.inr ⟨Nat.pos_of_ne_zero none_open, ahead_of_end last⟩
  | unmatched closes =>
    refine .of_takes (.nothing rfl 0) ?_
    rintro initializer ⟨assigns, _⟩
    exact absurd (assigns.symm.trans closes) (by decide)

/-- A round of a declaration that is not the last one. -/
theorem nests_of_more (goes : declarationRound state = .more next)
    (initial : ∀ initializer, InitializerOf state initializer →
      Nests 0 (keeps initializer) initializer (initializer.expression .semicolon))
    {others : Prop} (rest : Nests next.1 others next.2 result) :
    Nests state.1 ((∀ initializer, InitializerOf state initializer → keeps initializer) ∧ others)
      state.2 result := by
  have noInitializer {braces : Nat} {f : Formatter Feed} (noAssignment : f.kind ≠ .assignment)
      (takes : Takes braces f next.1 next.2) :
      Nests braces
        ((∀ initializer, InitializerOf (braces, f) initializer → keeps initializer) ∧ others) f
        result := by
    refine (Nests.after takes rest).congr ⟨fun more => ⟨?_, more⟩, And.right⟩
    rintro initializer ⟨assigns, _⟩
    exact absurd assigns noAssignment
  have turn := declarationTurn state
  rw [goes] at turn
  cases turn with
  | @leftBrace _ f opens =>
    exact noInitializer (by simp [opens])
      (@Takes.advance_leftBrace f.markDeclaration.endLine opens _)
  | @rightBrace _ f closes =>
    exact noInitializer (by simp [closes])
      (@Takes.advance_rightBrace f.markDeclaration.endLine.unindent closes _)
  | @assignment _ f assigns =>
    refine ((initial f.markDeclaration ⟨assigns, rfl⟩).append rest).congr ⟨?_, ?_⟩
    · rintro ⟨kept, more⟩
      refine ⟨?_, more⟩
      rintro _ ⟨_, rfl⟩
      exact kept
    · rintro ⟨all, more⟩
      exact ⟨all _ ⟨assigns, rfl⟩, more⟩
  | @semicolon _ f ends =>
    exact noInitializer (by simp [ends])
      (@Takes.advance_plain f.markDeclaration (by rw [kind_markDeclaration, ends]; rfl) _)
  | @other _ f notEnd noOpen noClose noAssignment =>
    exact noInitializer noAssignment
      (@Takes.advance_plain f.markDeclaration (Category.isPlain_of_ne noOpen noClose notEnd) _)

/-- A declaration leaves open the braces that its initializers lose. -/
theorem nests_declarationLoop (finishes : Finishes declarationRound state result)
    (initial : ∀ later, Reaches declarationRound state later →
      ∀ initializer, InitializerOf later initializer →
        Nests 0 (keeps initializer) initializer (initializer.expression .semicolon)) :
    Nests state.1 (∀ later, Reaches declarationRound state later →
      ∀ initializer, InitializerOf later initializer → keeps initializer) state.2 result := by
  induction finishes with
  | @done state result leaves =>
    refine (nests_of_done leaves).congr ⟨?_, fun all => all state (.here state)⟩
    intro all later reaches
    rw [reaches.of_done leaves]
    exact all
  | @more state next result goes after ih =>
    have rest := ih fun later reaches => initial later (.more goes reaches)
    refine (nests_of_more goes (initial state (.here state)) rest).congr ⟨?_, ?_⟩
    · rintro ⟨here, there⟩ later reaches
      cases reaches with
      | here => exact here
      | more goesToo reachesMore =>
        obtain rfl := Round.more.inj (goes.symm.trans goesToo)
        exact there later reachesMore
    · intro all
      exact ⟨all state (.here state), fun later reaches => all later (.more goes reaches)⟩

end Declarations

end CListing.Formatter
