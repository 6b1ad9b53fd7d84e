import CListing.Proofs.Formatter.Blocks
import CListing.Proofs.Formatter.Declarators

/-!
# Declarations and headers told apart

A declaration at file level is read through its semicolon exactly if every closing parenthesis
before its first value, outside of braces, stands before a token that can go on with it. The header
of a function is read up to the token behind it exactly if that holds of the parentheses before its
last one. Both are read token by token: the walk passes what stands before the first value, with the
bodies in it, and from there on an expression up to the semicolon.
-/

namespace CListing.Formatter

open Round

variable {f g h : Formatter Feed} {tokens inner others rest : List Token}
variable {token opening closing next : Token}
variable {terminator previous : Category} {braces : Nat} {opened : Int}

/-! ## Tokens that are passed -/

/-- From the first state to the second exactly these tokens are taken. None is reported missing and
no loop is given up. -/
structure Passes (f : Formatter Feed) (tokens : List Token) (g : Formatter Feed) : Prop where
  ahead : f.ahead = tokens ++ g.ahead
  missing : g.missing = f.missing
  endless : g.endless = f.endless

theorem Passes.refl (f : Formatter Feed) : Passes f [] f :=
  ⟨rfl, rfl, rfl⟩

theorem Passes.trans (first : Passes f tokens g) (second : Passes g others h) :
    Passes f (tokens ++ others) h where
  ahead := by rw [first.ahead, second.ahead, List.append_assoc]
  missing := second.missing.trans first.missing
  endless := second.endless.trans first.endless

/-- What is ahead behind the tokens. -/
theorem Passes.behind (passes : Passes f tokens g) (split : f.ahead = tokens ++ rest) :
    g.ahead = rest :=
  List.append_cancel_left (passes.ahead.symm.trans split)

theorem kind_of_ahead (split : f.ahead = token :: rest) :
    f.token = token ∧ f.kind = token.category ∧ f.kind ≠ .endOfFile := by
  have notEnd : f.kind ≠ .endOfFile := by
    intro last
    rw [ahead_of_end last] at split
    contradiction
  have same : f.token = token := by
    rw [ahead_advance notEnd] at split
    exact (List.cons.inj split).1
  exact ⟨same, congrArg Token.category same, notEnd⟩

theorem Passes.advance (split : f.ahead = token :: rest) : Passes f [token] f.advance := by
  obtain ⟨same, _, notEnd⟩ := kind_of_ahead split
  refine ⟨?_, rfl, rfl⟩
  rw [ahead_advance notEnd, same]
  rfl

/-- Behind a part that takes no token the next one is passed. -/
theorem Passes.step (marks : Passes f [] g) (split : f.ahead = token :: rest) :
    Passes f [token] g.advance :=
  marks.trans (Passes.advance (marks.behind split))

theorem Passes.markExpression (f : Formatter Feed) (previous : Category) :
    Passes f [] (f.markExpression previous) :=
  ⟨rfl, rfl, rfl⟩

theorem Passes.markCall (f : Formatter Feed) (previous : Category) :
    Passes f [] (f.markCall previous) := by
  unfold Formatter.markCall
  split <;> exact ⟨rfl, rfl, rfl⟩

theorem Passes.markDeclaration (f : Formatter Feed) : Passes f [] f.markDeclaration :=
  ⟨rfl, rfl, rfl⟩

/-! ## Expressions -/

theorem expressionRound_of_parens (notLast : .leftParen ≠ terminator) (opens : f.kind = .leftParen)
    (reads : ((f.markExpression previous).markCall previous).advance.expression .rightParen = g)
    (closes : g.kind = .rightParen) :
    expressionRound terminator (previous, braces, f) = .more (.rightParen, braces, g.advance) := by
  have same : (f.markExpression previous).kind = .leftParen := opens
  simp only [expressionRound]
  rw [if_neg (by simp [notLast, opens]), same]
  dsimp only
  rw [reads, if_pos closes]

theorem expressionRound_of_leftBrace (notLast : .leftBrace ≠ terminator)
    (opens : f.kind = .leftBrace) :
    expressionRound terminator (previous, braces, f) =
      .more (.leftBrace, braces + 1, (f.markExpression previous).advance) := by
  have same : (f.markExpression previous).kind = .leftBrace := opens
  simp only [expressionRound]
  rw [if_neg (by simp [notLast, opens]), same]

theorem expressionRound_of_rightBrace (notLast : .rightBrace ≠ terminator)
    (closes : f.kind = .rightBrace) :
    expressionRound terminator (previous, braces + 1, f) =
      .more (.rightBrace, braces, (f.markExpression previous).advance) := by
  have same : (f.markExpression previous).kind = .rightBrace := closes
  simp only [expressionRound]
  rw [if_neg (by simp [notLast, closes]), same]

/-- The terminator of the expression is left, with any number of open braces. -/
theorem expressionLoop_of_terminator (last : f.kind = terminator) :
    expressionLoop terminator (previous, braces, f) = f := by
  refine (consuming_expressionLoop terminator).eq_of_done ?_
  rw [expressionRound, if_pos (by simp [last])]

/-- Tokens that are read as an expression are passed by it. -/
theorem exists_expressionLoop (passable : Passable terminator tokens)
    (ends : terminator = .semicolon ∨ terminator = .rightParen)
    (split : f.ahead = tokens ++ rest) (previous : Category) (braces : Nat) :
    ∃ last g, expressionLoop terminator (previous, braces, f) =
      expressionLoop terminator (last, braces, g) ∧ Passes f tokens g := by
  induction passable generalizing f rest previous braces with
  | nil => exact ⟨previous, f, rfl, Passes.refl f⟩
  | @token terminator token tokens notLast noParen noOpen noClose _ ih =>
    have consuming := consuming_expressionLoop terminator
    obtain ⟨_, here, notEnd⟩ := kind_of_ahead split
    have step := (Passes.markExpression f previous).step split
    obtain ⟨last, g, same, passes⟩ := ih ends (step.behind split) token.category braces
    have goes := @expressionRound_of_ne f terminator previous (by rwa [here]) notEnd
      (by rwa [here]) (by rwa [here]) (by rwa [here]) braces
    rw [here] at goes
    exact ⟨last, g, (consuming.eq_of_more goes).trans same, step.trans passes⟩
  | @parens terminator opening closing inner tokens opens closes _ _ inside_ih later_ih =>
    have consuming := consuming_expressionLoop terminator
    obtain ⟨_, here, _⟩ := kind_of_ahead split
    rw [List.cons_append, List.append_assoc, List.cons_append] at split
    have step := ((Passes.markExpression f previous).trans (Passes.markCall _ previous)).step split
    -- The inner level ends at its closing parenthesis, so this one goes on behind that.
    obtain ⟨final, read, same, passes⟩ :=
      inside_ih (Or.inr rfl) (step.behind split) .foreign 0
    have behind := passes.behind (step.behind split)
    obtain ⟨_, there, _⟩ := kind_of_ahead behind
    rw [expressionLoop_of_terminator (there.trans closes), ← expression_eq] at same
    have after := step.trans (passes.trans (Passes.advance behind))
    have goes := @expressionRound_of_parens f read terminator previous braces
      (by rcases ends with rfl | rfl <;> decide) (here.trans opens) same (there.trans closes)
    obtain ⟨last, g, later, more⟩ :=
      later_ih ends ((Passes.advance behind).behind behind) .rightParen braces
    refine ⟨last, g, (consuming.eq_of_more goes).trans later, ?_⟩
    simpa using after.trans more
  | @braces terminator opening closing inner tokens opens closes _ _ inside_ih later_ih =>
    have consuming := consuming_expressionLoop terminator
    obtain ⟨_, here, _⟩ := kind_of_ahead split
    rw [List.cons_append, List.append_assoc, List.cons_append] at split
    have step := (Passes.markExpression f previous).step split
    have goes := @expressionRound_of_leftBrace f terminator previous braces
      (by rcases ends with rfl | rfl <;> decide) (here.trans opens)
    -- With one more brace open, the closing one does not end the expression.
    obtain ⟨final, read, same, passes⟩ :=
      inside_ih ends (step.behind split) .leftBrace (braces + 1)
    have behind := passes.behind (step.behind split)
    obtain ⟨_, there, _⟩ := kind_of_ahead behind
    have closing := (Passes.markExpression read final).step behind
    have leaves := @expressionRound_of_rightBrace read terminator final braces
      (by rcases ends with rfl | rfl <;> decide) (there.trans closes)
    obtain ⟨last, g, later, more⟩ := later_ih ends (closing.behind behind) .rightBrace braces
    refine ⟨last, g, ?_, ?_⟩
    · rw [consuming.eq_of_more goes, same, consuming.eq_of_more leaves, later]
    · simpa using step.trans (passes.trans (closing.trans more))

/-- An expression passes its tokens, up to its terminator or to a closing brace. -/
theorem passes_expression (passable : Passable terminator tokens)
    (ends : terminator = .semicolon ∨ terminator = .rightParen)
    (split : f.ahead = tokens ++ next :: rest)
    (stops : next.category = terminator ∨ next.category = .rightBrace) :
    Passes f tokens (f.expression terminator) := by
  obtain ⟨last, g, same, passes⟩ := exists_expressionLoop passable ends split .foreign 0
  obtain ⟨_, there, notEnd⟩ := kind_of_ahead (passes.behind split)
  rw [expression_eq, same]
  rcases stops with own | closes
  · rwa [expressionLoop_of_terminator (there.trans own)]
  · have notLast : .rightBrace ≠ terminator := by rcases ends with rfl | rfl <;> decide
    have marked : (g.markExpression last).kind = .rightBrace := there.trans closes
    rw [(consuming_expressionLoop terminator).turn, expressionRound,
      if_neg (by simp [there, closes, notLast])]
    dsimp only
    rw [marked]
    have whole := passes.trans (Passes.markExpression g last)
    rwa [List.append_nil] at whole

/-! ## Rounds at file level -/

/-- Before the end of a declaration a round goes by the category of the token. -/
theorem externalRound_of_ahead (opened : Int) (split : f.ahead = token :: rest)
    (inside : 0 < opened ∨ token.category ≠ .semicolon) :
    externalRound (opened, f) =
      match token.category with
      | .leftBrace => .more (opened + 1, f.markDeclaration.openBrace)
      | .rightBrace => .more (opened - 1, f.markDeclaration.closeBrace)
      | .rightParen =>
        if opened = 0 && !f.markDeclaration.advance.kind.goesOnWithDeclaration then
          .done (.header, f.markDeclaration.advance)
        else .more (opened, f.markDeclaration.advance)
      | .assignment => .more (opened, f.markDeclaration.expression .semicolon)
      | .semicolon => .more (opened, f.markDeclaration.advance.endLine)
      | _ => .more (opened, f.markDeclaration.advance) := by
  obtain ⟨_, here, notEnd⟩ := kind_of_ahead split
  have marked : f.markDeclaration.kind = token.category := here
  have goesOn : ((opened ≤ 0 && f.kind = .semicolon) || f.kind = .endOfFile) = false := by
    rcases inside with deep | notLast
    · simp [notEnd, deep]
    · rw [here] at notEnd
      simp [notEnd, here, notLast]
  cases category : token.category <;>
    simp only [externalRound, goesOn, Bool.false_eq_true, if_false, marked, category]

theorem Passes.openBrace (split : f.ahead = token :: rest) :
    Passes f [token] f.markDeclaration.openBrace := by
  obtain ⟨ahead, missing, endless⟩ := (Passes.markDeclaration f).step split
  exact ⟨ahead, missing, endless⟩

theorem Passes.closeBrace (split : f.ahead = token :: rest) :
    Passes f [token] f.markDeclaration.closeBrace := by
  obtain ⟨ahead, missing, endless⟩ := (Passes.markDeclaration f).step split
  exact ⟨ahead, missing, endless⟩

/-- A token other than the braces and the assignment is passed, if it ends nothing. -/
theorem externalRound_of_ne (opened : Int) (split : f.ahead = token :: rest)
    (noOpen : token.category ≠ .leftBrace) (noClose : token.category ≠ .rightBrace)
    (noValue : token.category ≠ .assignment)
    (inside : 0 < opened ∨ token.category ≠ .semicolon ∧ token.category ≠ .rightParen) :
    ∃ g, externalRound (opened, f) = .more (opened, g) ∧ Passes f [token] g := by
  have step := (Passes.markDeclaration f).step split
  rw [externalRound_of_ahead opened split (inside.imp_right And.left)]
  cases category : token.category with
  | leftBrace | rightBrace | assignment => contradiction
  | rightParen =>
    have deep : opened ≠ 0 := by
      rcases inside with deep | ⟨_, noParen⟩
      · exact Int.ne_of_gt deep
      · contradiction
    exact ⟨_, if_neg (by simp [deep]), step⟩
  | semicolon => exact ⟨_, rfl, step.ahead, step.missing, step.endless⟩
  | _ => exact ⟨_, rfl, step⟩

/-- An assignment and its value are passed, up to a semicolon or to the end of a body. -/
theorem passes_value {assignment : Token} {value : List Token}
    (assigns : assignment.category = .assignment) (passable : Passable .semicolon value)
    (split : f.ahead = assignment :: (value ++ next :: rest))
    (stops : next.category = .semicolon ∨ next.category = .rightBrace) :
    Passes f (assignment :: value) (f.markDeclaration.expression .semicolon) := by
  have whole : Passable .semicolon (assignment :: value) :=
    Passable.token (by simp [assigns]) (by simp [assigns]) (by simp [assigns]) (by simp [assigns])
      passable
  have marks := Passes.markDeclaration f
  exact marks.trans (passes_expression whole (Or.inl rfl) (marks.behind split) stops)

/-! ## Bodies -/

/-- The loop at file level passes the tokens and goes on with as many open braces. -/
def Crosses (opened : Int) (f : Formatter Feed) (tokens : List Token) : Prop :=
  ∃ g, externalLoop (opened, f) = externalLoop (opened, g) ∧ Passes f tokens g

theorem Crosses.nothing (opened : Int) (f : Formatter Feed) : Crosses opened f [] :=
  ⟨f, rfl, Passes.refl f⟩

theorem Crosses.trans (same : externalLoop (opened, f) = externalLoop (opened, g))
    (passes : Passes f tokens g) (later : Crosses opened g others) :
    Crosses opened f (tokens ++ others) := by
  obtain ⟨h, sameLater, passesLater⟩ := later
  exact ⟨h, same.trans sameLater, passes.trans passesLater⟩

/-- A body in braces is passed, if what stands in it is passed one level deeper. -/
theorem Crosses.enclosed (opened : Int) (opens : opening.category = .leftBrace)
    (closes : closing.category = .rightBrace)
    (split : f.ahead = opening :: (inner ++ closing :: rest))
    (inside : ∀ g, g.ahead = inner ++ closing :: rest → Crosses (opened + 1) g inner) :
    Crosses opened f (opening :: (inner ++ [closing])) := by
  have opening := Passes.openBrace split
  obtain ⟨g, same, passes⟩ := inside _ (opening.behind split)
  have behind := passes.behind (opening.behind split)
  have enters := externalRound_of_ahead opened split (Or.inr (by simp [opens]))
  have leaves := externalRound_of_ahead (opened + 1) behind (Or.inr (by simp [closes]))
  rw [opens] at enters
  rw [closes, Int.add_sub_cancel] at leaves
  refine ⟨_, ?_, opening.trans (passes.trans (Passes.closeBrace behind))⟩
  rw [consuming_externalLoop.eq_of_more enters, same, consuming_externalLoop.eq_of_more leaves]

/-- What stands in a body is passed. -/
theorem crosses_body (body : IsBody tokens) (inside : 0 < opened)
    (split : f.ahead = tokens ++ closing :: rest) (closes : closing.category = .rightBrace) :
    Crosses opened f tokens := by
  induction body generalizing f opened rest closing with
  | nil => exact Crosses.nothing opened f
  | token noOpen noClose noValue _ ih =>
    obtain ⟨g, goes, passes⟩ :=
      externalRound_of_ne opened split noOpen noClose noValue (Or.inl inside)
    exact Crosses.trans (consuming_externalLoop.eq_of_more goes) passes
      (ih inside (passes.behind split) closes)
  | @value assignment value tokens assigns passable ends _ ih =>
    have goes := externalRound_of_ahead opened split (Or.inl inside)
    rw [assigns] at goes
    -- The value ends at the semicolon behind it or at the end of the body.
    obtain ⟨stop, behind, continues, stops⟩ : ∃ stop behind,
        tokens ++ closing :: rest = stop :: behind ∧
          (stop.category = .semicolon ∨ stop.category = .rightBrace) := by
      cases tokens with
      | nil => exact ⟨closing, rest, rfl, Or.inr closes⟩
      | cons stop tokens => exact ⟨stop, _, rfl, Or.inl (ends stop rfl)⟩
    rw [List.cons_append, List.append_assoc, continues] at split
    have read := passes_value assigns passable split stops
    exact Crosses.trans (consuming_externalLoop.eq_of_more goes) read
      (ih inside ((read.behind split).trans continues.symm) closes)
  | @body ownOpening ownClosing inner tokens opens ownCloses _ _ inside_ih later_ih =>
    rw [List.cons_append, List.append_assoc, List.cons_append] at split
    obtain ⟨g, same, passes⟩ := Crosses.enclosed opened opens ownCloses split
      fun g there => inside_ih (by omega) there ownCloses
    rw [List.append_cons, ← List.cons_append] at split
    have later := later_ih inside (passes.behind split) closes
    rw [List.append_cons, ← List.cons_append]
    exact Crosses.trans same passes later

/-! ## The decision -/

/-- Outside of braces the token behind a closing parenthesis decides. -/
theorem externalRound_of_rightParen (split : f.ahead = closing :: next :: rest)
    (closes : closing.category = .rightParen) :
    externalRound (0, f) =
      if next.category.goesOnWithDeclaration then .more (0, f.markDeclaration.advance)
      else .done (.header, f.markDeclaration.advance) := by
  have goes := externalRound_of_ahead 0 split (Or.inr (by simp [closes]))
  obtain ⟨_, here, _⟩ := kind_of_ahead (((Passes.markDeclaration f).step split).behind split)
  rw [closes, here] at goes
  rw [goes]
  cases next.category.goesOnWithDeclaration <;> rfl

/-- What stands in a declaration before its first value is passed, or a closing parenthesis in it is
taken for the end of a header. -/
def Decided (f : Formatter Feed) (tokens rest : List Token) : Prop :=
  parensGoOn 0 tokens = true ∧ Crosses 0 f tokens ∨
    parensGoOn 0 tokens = false ∧
      ∃ g, externalLoop (0, f) = (.header, g) ∧ rest <:+ g.ahead

/-- Behind tokens that are passed the decision is the same. -/
theorem Decided.before (decided : Decided g others rest)
    (same : externalLoop (0, f) = externalLoop (0, g)) (passes : Passes f tokens g)
    (harmless : parensGoOn 0 (tokens ++ others) = parensGoOn 0 others) :
    Decided f (tokens ++ others) rest := by
  rw [Decided, harmless, same]
  exact decided.imp_left (And.imp_right (Crosses.trans same passes))

/-- The tokens before the first value of a declaration are passed if all closing parentheses go on
with it. -/
theorem decided_head (head : IsHead tokens) (split : f.ahead = tokens ++ next :: rest)
    (goesOn : next.category.goesOnWithDeclaration = true) :
    Decided f tokens (next :: rest) := by
  induction head generalizing f with
  | nil => exact Or.inl ⟨rfl, Crosses.nothing 0 f⟩
  | @token token tokens noOpen noClose noValue notLast _ ih =>
    by_cases closes : token.category = .rightParen
    · have step := (Passes.markDeclaration f).step split
      have judged := parensGoOn_rightParen closes tokens
      obtain ⟨follower, behind, continues, decides⟩ : ∃ follower behind,
          tokens ++ next :: rest = follower :: behind ∧
            tokens.head?.all (·.category.goesOnWithDeclaration) =
              follower.category.goesOnWithDeclaration := by
        cases tokens with
        | nil => exact ⟨next, rest, rfl, goesOn.symm⟩
        | cons follower tokens => exact ⟨follower, _, rfl, rfl⟩
      have goes :=
        externalRound_of_rightParen (split.trans (congrArg (token :: ·) continues)) closes
      rw [decides] at judged
      cases answer : follower.category.goesOnWithDeclaration with
      | true =>
        rw [if_pos answer] at goes
        rw [answer, Bool.true_and] at judged
        exact (ih (step.behind split)).before (consuming_externalLoop.eq_of_more goes) step judged
      | false =>
        rw [if_neg (by simp [answer])] at goes
        rw [answer, Bool.false_and] at judged
        exact Or.inr ⟨judged, _, consuming_externalLoop.eq_of_done goes, tokens,
          (step.behind split).symm⟩
    · obtain ⟨g, goes, passes⟩ :=
        externalRound_of_ne 0 split noOpen noClose noValue (Or.inr ⟨notLast, closes⟩)
      exact (ih (passes.behind split)).before (consuming_externalLoop.eq_of_more goes) passes
        (parensGoOn_cons_of_ne closes noOpen noClose tokens)
  | @body opening closing inner tokens opens closes inside _ ih =>
    rw [List.cons_append, List.append_assoc, List.cons_append] at split
    obtain ⟨g, same, passes⟩ := Crosses.enclosed 0 opens closes split
      fun g there => crosses_body inside (by decide) there closes
    have harmless := parensGoOn_body opens closes inside.openBraces? tokens
    rw [List.append_cons, ← List.cons_append] at split
    rw [List.append_cons, ← List.cons_append] at harmless ⊢
    exact (ih (passes.behind split)).before same passes harmless

/-- From the first value on, or from the semicolon if there is none, a declaration is read through
its semicolon. -/
theorem externalLoop_initializer (initializer : IsInitializer tokens)
    (split : f.ahead = tokens ++ next :: rest) (ends : next.category = .semicolon) :
    ∃ g, externalLoop (0, f) = (.declaration, g) ∧ Passes f tokens g := by
  have leaves {g : Formatter Feed} (there : g.ahead = next :: rest) :
      externalLoop (0, g) = (.declaration, g) := by
    obtain ⟨_, here, _⟩ := kind_of_ahead there
    refine consuming_externalLoop.eq_of_done ?_
    rw [externalRound, if_pos (by simp [here, ends])]
  cases initializer with
  | none => exact ⟨f, leaves split, Passes.refl f⟩
  | @value assignment value assigns passable =>
    have goes := externalRound_of_ahead 0 split (Or.inr (by simp [assigns]))
    rw [assigns] at goes
    have read := passes_value assigns passable split (Or.inl ends)
    exact ⟨_, (consuming_externalLoop.eq_of_more goes).trans (leaves (read.behind split)), read⟩

theorem externalDeclaration_of_header (found : externalLoop (0, f) = (.header, g)) :
    f.externalDeclaration = (.header, g) := by
  rw [externalDeclaration, show externalFrom 0 f.budget f = (.header, g) from found]

theorem externalDeclaration_of_declaration (found : externalLoop (0, f) = (.declaration, g)) :
    f.externalDeclaration = (.declaration, g.endDeclaration) := by
  rw [externalDeclaration, show externalFrom 0 f.budget f = (.declaration, g) from found]

theorem Passes.endDeclaration (split : f.ahead = token :: rest)
    (ends : token.category = .semicolon) : Passes f [token] f.endDeclaration := by
  obtain ⟨_, here, _⟩ := kind_of_ahead split
  rw [Formatter.endDeclaration, expect, if_pos (here.trans ends)]
  obtain ⟨ahead, missing, endless⟩ := Passes.advance split
  exact ⟨ahead, missing, endless⟩

/-- A declaration is read through its semicolon, unless a closing parenthesis before its first value
is taken for the end of a header. -/
theorem externalDeclaration_iff (declaration : FileDeclaration)
    (split : f.ahead = declaration.tokens ++ rest) :
    (∃ read, f.externalDeclaration = (.declaration, read) ∧ Passes f declaration.tokens read) ↔
      ParensGoOn declaration.head := by
  obtain ⟨head, initializer, semicolon, isHead, isInitializer, ends⟩ := declaration
  dsimp only [FileDeclaration.tokens] at split ⊢
  obtain ⟨next, behind, continues, goesOn⟩ : ∃ next behind,
      initializer ++ [semicolon] ++ rest = next :: behind ∧
        next.category.goesOnWithDeclaration = true := by
    cases isInitializer with
    | none => exact ⟨semicolon, rest, rfl, by rw [ends]; rfl⟩
    | value assigns _ => exact ⟨_, _, rfl, by rw [assigns]; rfl⟩
  rw [List.append_assoc, continues] at split
  rw [← parensGoOn_iff]
  rcases decided_head isHead split goesOn with
    ⟨harmless, g, same, passes⟩ | ⟨misleads, g, header, _⟩
  · refine iff_of_true ?_ harmless
    have there := (passes.behind split).trans continues.symm
    rw [List.append_assoc] at there
    obtain ⟨last, found, through⟩ := externalLoop_initializer isInitializer there ends
    refine ⟨_, externalDeclaration_of_declaration (same.trans found), ?_⟩
    exact passes.trans (through.trans (Passes.endDeclaration (through.behind there) ends))
  · refine iff_of_false ?_ (by simp [misleads])
    rintro ⟨read, found, _⟩
    rw [externalDeclaration_of_header header] at found
    cases found

/-- A header is read up to the token behind it, unless a closing parenthesis inside it is taken for
its end. -/
theorem externalDeclaration_header_iff (header : FunctionHeader)
    (split : f.ahead = header.tokens ++ next :: rest)
    (follows : next.category.followsHeader = true) :
    (∃ read, f.externalDeclaration = (.header, read) ∧ Passes f header.tokens read ∧
      read.token = next) ↔ ParensGoOn header.front := by
  obtain ⟨front, closing, isHead, closes⟩ := header
  dsimp only [FunctionHeader.tokens] at split ⊢
  have continues := split
  rw [List.append_assoc, List.singleton_append] at continues
  rw [← parensGoOn_iff]
  rcases decided_head isHead continues (by rw [closes]; rfl) with
    ⟨harmless, g, same, passes⟩ | ⟨misleads, g, early, before⟩
  · refine iff_of_true ?_ harmless
    have there := passes.behind continues
    have step := (Passes.markDeclaration g).step there
    have leaves := externalRound_of_rightParen there closes
    rw [if_neg (by simp [Category.not_goesOnWithDeclaration_of_followsHeader follows])] at leaves
    exact ⟨_, externalDeclaration_of_header (same.trans (consuming_externalLoop.eq_of_done leaves)),
      passes.trans step, (kind_of_ahead (step.behind there)).1⟩
  · refine iff_of_false ?_ (by simp [misleads])
    rintro ⟨read, found, passes, _⟩
    rw [externalDeclaration_of_header early] at found
    cases found
    -- The parenthesis that ends the header would be ahead still.
    rw [passes.behind split] at before
    exact absurd before.length_le (by simp)

/-- Declarations at file level and headers of functions are told apart. A declaration is read
through its semicolon with nothing missing exactly if every closing parenthesis before its first
value, outside of braces, stands before a token that can go on with it. A header is read up to the
token behind it exactly if that holds of the parentheses before its last one. It holds of
declarators, parameter lists and headers without parentheses in the bounds of arrays. -/
theorem externalDeclaration_tells_apart (f : Formatter Feed) (after : List Token) :
    (∀ declaration : FileDeclaration, f.ahead = declaration.tokens ++ after →
      ((∃ read, f.externalDeclaration = (.declaration, read) ∧ Passes f declaration.tokens read) ↔
        ParensGoOn declaration.head)) ∧
    (∀ (header : FunctionHeader) (next : Token), f.ahead = header.tokens ++ next :: after →
      next.category.followsHeader = true →
        ((∃ read, f.externalDeclaration = (.header, read) ∧ Passes f header.tokens read ∧
          read.token = next) ↔ ParensGoOn header.front)) ∧
    (∀ tokens, Phrase.declarators.Spells tokens → IsHead tokens ∧ ParensGoOn tokens) ∧
    ∀ front closing, Phrase.declarator.Spells (front ++ [closing]) →
      closing.category = .rightParen → IsHead front ∧ ParensGoOn front :=
  ⟨fun declaration split => externalDeclaration_iff declaration split,
    fun header _ split follows => externalDeclaration_header_iff header split follows,
    fun _ spells => ⟨spells.isHead, spells.parensGoOn_self⟩,
    fun _ _ spells closes => spells.header closes⟩

/-- A prototype is a declaration, and the header of a function comes before its body. -/
theorem externalDeclaration_tells_apart_prototype :
    (∃ read, (atStart "int (*g)(int);").externalDeclaration = (.declaration, read) ∧
      read.ahead = [] ∧ read.missing = 0) ∧
    ∃ read, (atStart "int f(int a)\x7breturn a;\x7d").externalDeclaration = (.header, read) ∧
      read.kind = .leftBrace := by
  constructor
  · have tokens : (atStart "int (*g)(int);").ahead =
        ([⟨.typeSpecifier, "int".toList, 0⟩, ⟨.leftParen, ['('], 0⟩, ⟨.unaryOrBinary, ['*'], 0⟩,
          ⟨.identifier, ['g'], 0⟩, ⟨.rightParen, [')'], 0⟩, ⟨.leftParen, ['('], 0⟩,
          ⟨.typeSpecifier, "int".toList, 0⟩, ⟨.rightParen, [')'], 0⟩] ++
            ([] ++ [⟨.semicolon, [';'], 0⟩])) ++ [] := by
      decide +kernel
    have iff := (externalDeclaration_tells_apart (atStart "int (*g)(int);") []).1
      ⟨_, _, _, isHead_of_plain (by decide), .none, rfl⟩ tokens
    obtain ⟨read, found, passes⟩ := iff.mpr (by decide)
    exact ⟨read, found, passes.behind tokens, passes.missing⟩
  · have tokens : (atStart "int f(int a)\x7breturn a;\x7d").ahead =
        ([⟨.typeSpecifier, "int".toList, 0⟩, ⟨.identifier, ['f'], 0⟩, ⟨.leftParen, ['('], 0⟩,
          ⟨.typeSpecifier, "int".toList, 0⟩, ⟨.identifier, ['a'], 0⟩] ++
            [⟨.rightParen, [')'], 0⟩]) ++
          ⟨.leftBrace, ['\x7b'], 0⟩ :: [⟨.kwReturn, "return".toList, 0⟩, ⟨.identifier, ['a'], 0⟩,
            ⟨.semicolon, [';'], 0⟩, ⟨.rightBrace, ['\x7d'], 0⟩] := by
      decide +kernel
    have parameter : Phrase.declarators.Spells
        [⟨.typeSpecifier, "int".toList, 0⟩, ⟨.identifier, ['a'], 0⟩] :=
      .last (.token rfl (.token rfl (.ofSuffixes .nil)))
    have parameters : Phrase.suffixes.Spells (⟨.leftParen, ['('], 0⟩ :: (_ ++
        ⟨.rightParen, [')'], 0⟩ :: [])) :=
      .parameters rfl rfl parameter .nil
    have header : Phrase.declarator.Spells
        ([⟨.typeSpecifier, "int".toList, 0⟩, ⟨.identifier, ['f'], 0⟩, ⟨.leftParen, ['('], 0⟩,
          ⟨.typeSpecifier, "int".toList, 0⟩, ⟨.identifier, ['a'], 0⟩] ++
            [⟨.rightParen, [')'], 0⟩]) :=
      .token rfl (.token rfl (.ofSuffixes parameters))
    have tellsApart :=
      externalDeclaration_tells_apart (atStart "int f(int a)\x7breturn a;\x7d")
    obtain ⟨isHead, goOn⟩ := (tellsApart []).2.2.2 _ _ header rfl
    obtain ⟨read, found, _, here⟩ :=
      ((tellsApart _).2.1 ⟨_, _, isHead, rfl⟩ _ tokens rfl).mpr goOn
    exact ⟨read, found, congrArg Token.category here⟩

/-- Every declaration at file level is read through its semicolon. -/
def ReadsDeclarations (f : Formatter Feed) : Prop :=
  ∀ (declaration : FileDeclaration) (after : List Token), f.ahead = declaration.tokens ++ after →
    ∃ read, f.externalDeclaration = (.declaration, read) ∧ Passes f declaration.tokens read

/-- A parenthesis in the bound of an array is taken for the end of a header. A value given in a
bound, or a bound behind the parentheses of a declarator, lets a header be read as a declaration,
and a body behind such a value ends the declaration at its first semicolon. -/
theorem not_readsDeclarations :
    ¬ (atStart "int a[(2)];").ReadsDeclarations ∧
      (atStart "int f(int n, int a[n = 3])\x7breturn 0;\x7d").externalDeclaration.1 =
        .declaration ∧
      (atStart "int (*f(int a))[3]\x7breturn 0;\x7d").externalDeclaration.1 = .declaration ∧
      (atStart "int f(int a[b = 3], struct s\x7bint x;\x7d *p);").externalDeclaration.2.kind =
        .rightBrace := by
  refine ⟨fun reads => ?_, by decide +kernel, by decide +kernel, by decide +kernel⟩
  have tokens : (atStart "int a[(2)];").ahead =
      ([⟨.typeSpecifier, "int".toList, 0⟩, ⟨.identifier, ['a'], 0⟩, ⟨.leftBracket, ['['], 0⟩,
        ⟨.leftParen, ['('], 0⟩, ⟨.constant, ['2'], 0⟩, ⟨.rightParen, [')'], 0⟩,
        ⟨.rightBracket, [']'], 0⟩] ++ ([] ++ [⟨.semicolon, [';'], 0⟩])) ++ [] := by
    decide +kernel
  obtain ⟨read, found, _⟩ := reads ⟨_, _, _, isHead_of_plain (by decide), .none, rfl⟩ _ tokens
  have header : (atStart "int a[(2)];").externalDeclaration.1 = .header := by decide +kernel
  rw [found] at header
  contradiction

end CListing.Formatter
