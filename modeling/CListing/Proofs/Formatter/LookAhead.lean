import CListing.Proofs.Formatter.AnySource
import CListing.Proofs.Formatter.Dispatch
import CListing.Proofs.Formatter.Visits
import CListing.Proofs.Reader.Barrier

/-!
# Looking for a label

To see whether a name is a label, a statement goes on to the token after it. If that is no colon, it
is put back and the name is read once more. This leaves no trace: the statement ends like an
expression statement that never looked ahead, with the same tokens, commands and notes.

Along a feed both come off. A reader may meet a barrier, where expressions go on for ever; then both
are given up, or both end before it.
-/

namespace CListing

theorem Category.isName_iff {category : Category} :
    category.isName = true ↔ category = .identifier ∨ category = .upperCaseIdentifier := by
  cases category <;> simp [isName]

/-- The tokens of a reader after some of its tokens are tokens of the reader. -/
theorem Reader.afterTokens_add (reader : Reader) (first second : Nat) :
    (reader.afterTokens first).afterTokens second = reader.afterTokens (first + second) := by
  induction second with
  | zero => rfl
  | succ second ih => rw [afterTokens, ih, ← Nat.add_assoc, ← afterTokens]

namespace Formatter

section AnySource

variable {σ : Type} [TokenSource σ] {f : Formatter σ}

omit [TokenSource σ] in
theorem kind_ne_of_name (name : f.kind.isName = true) {category : Category}
    (noName : category.isName = false) : f.kind ≠ category := by
  rintro rfl
  rw [name] at noName
  contradiction

omit [TokenSource σ] in
/-- A name has no mark in an expression. -/
theorem markExpression_of_name (name : f.kind.isName = true) (previous : Category) :
    f.markExpression previous = f := by
  have unmarked : f.kind.expressionSpacing previous = .free := by
    rcases Category.isName_iff.mp name with lower | upper
    · rw [lower]
      rfl
    · rw [upper]
      rfl
  rw [markExpression, Cursor.markExpression, unmarked, Cursor.adjust, Spacing.merge_free]

/-- An expression goes on behind a name. -/
theorem expressionFrom_of_name (name : f.kind.isName = true) {terminator : Category}
    (goes : f.kind ≠ terminator) (previous : Category) (braces budget : Nat) :
    expressionFrom terminator previous braces (budget + 1) f =
      expressionFrom terminator f.kind braces budget f.advance := by
  have notEnd : f.kind ≠ .endOfFile := kind_ne_of_name name rfl
  have continues : ¬ (f.kind = terminator || f.kind = .endOfFile) = true := by simp [goes, notEnd]
  rw [expressionFrom, if_neg continues, markExpression_of_name name]
  rcases Category.isName_iff.mp name with lower | upper
  · simp only [lower]
  · simp only [upper]

theorem expression_behind_name (name : f.kind.isName = true) :
    f.expression .semicolon = expressionFrom .semicolon f.kind 0 f.remaining f.advance :=
  expressionFrom_of_name name (kind_ne_of_name name rfl) .foreign 0 f.remaining

/-- Without a colon behind its name a statement is an expression statement that begins with the name
looked at again. -/
theorem statementWithin_of_name (name : f.kind.isName = true) (noLabel : f.advance.kind ≠ .colon)
    (depth : Nat) :
    statementWithin (depth + 1) f =
      (f.advance.putBack.lookAt f.token).expressionStatement := by
  have again : (f.advance.putBack.lookAt f.token).kind.isName = true := name
  rw [kind] at name
  rw [statementWithin, statementVia]
  dsimp only
  rw [if_pos name, if_neg noLabel, unlabelledVia_of_name again]

theorem endless_endStatement (f : Formatter σ) : f.endStatement.endless = f.endless := by
  unfold endStatement expect
  split <;> rfl

theorem lookahead?_lookAgain (f : Formatter σ) :
    (f.advance.putBack.lookAt f.token).cursor.lookahead? = some f.advance.token := by
  rw [putBack_advance]
  rfl

/-- To go on to a token put back uses up the token before it. -/
theorem remaining_advance_of_put {token : Token} (put : f.cursor.lookahead? = some token)
    (notEnd : f.kind ≠ .endOfFile) : f.advance.remaining < f.remaining := by
  obtain ⟨cursor, current⟩ := f
  obtain ⟨source, _, spacing, lookahead, traced⟩ := cursor
  obtain rfl : lookahead = some token := put
  simp only [kind] at notEnd
  simp [advance, Cursor.next, remaining, kind, notEnd]

/-- A walk that was given up stays so. -/
theorem stepInvariant_endless : StepInvariant fun f : Formatter σ => f.endless = true where
  perform _ holds := holds
  reportMissing _ holds := holds
  adjust _ holds := holds
  advance holds := holds
  lookAgain {f} holds := by
    rw [putBack_advance]
    exact holds
  giveUp _ := rfl
  countFunction holds := holds
  countOpened holds := holds
  countClosed holds := holds

/-- What was given up inside parentheses stays given up behind them. -/
theorem endless_behind_inner (given : f.endless = true) (terminator : Category)
    (braces budget : Nat) :
    (if f.kind = .rightParen then expressionFrom terminator .rightParen braces budget f.advance
      else f.reportMissing .rightParen).endless = true := by
  split
  · exact stepInvariant_endless.expressionFrom (stepInvariant_endless.advance given)
  · exact given

end AnySource

/-! ## Along a reader -/

section Readers

variable {f g a b : Formatter Reader}

/-- The formatter has come to a barrier. -/
structure Stalled (f : Formatter Reader) : Prop where
  kind : f.kind = .upperCaseIdentifier
  free : f.cursor.lookahead? = none
  stuck : f.cursor.source.Stuck

theorem advance_of_free_reader (free : f.cursor.lookahead? = none) :
    f.advance.token = f.cursor.source.fetch.1.token ∧
      f.advance.cursor.source = f.cursor.source.fetch.2 := by
  rw [advance, Cursor.next, free]
  exact ⟨rfl, rfl⟩

/-- Where the reader meets a barrier, the formatter comes to it. -/
theorem stalled_advance (free : f.cursor.lookahead? = none)
    (meets : f.cursor.source.MeetsBarrier) : f.advance.Stalled := by
  obtain ⟨token, source⟩ := advance_of_free_reader free
  refine ⟨?_, lookahead?_advance f, ?_⟩
  · rw [Formatter.kind, token]
    exact (Reader.token_of_meetsBarrier meets).1
  · rw [source]
    exact meets.stuck.1

/-- At a barrier an expression goes on until it is given up. -/
theorem Stalled.endless_expressionFrom (stalled : f.Stalled) {terminator : Category}
    (noWord : terminator ≠ .upperCaseIdentifier) (previous : Category) (braces budget : Nat) :
    (expressionFrom terminator previous braces budget f).endless = true := by
  induction budget generalizing previous f with
  | zero => rfl
  | succ budget ih =>
    have name : f.kind.isName = true := by
      rw [stalled.kind]
      rfl
    rw [expressionFrom_of_name name (by rw [stalled.kind]; exact noWord.symm)]
    exact ih (stalled_advance stalled.free stalled.stuck.meets) f.kind

/-- The first formatter can come to the second one without meeting a barrier, and no loop is given
up on the way. -/
structure Follows (f g : Formatter Reader) : Prop where
  remaining : g.remaining ≤ f.remaining
  endless : g.endless = f.endless
  source : ∃ count, g.cursor.source = f.cursor.source.afterTokens count

/-- A barrier is ahead of the formatter. -/
def BarrierAhead (f : Formatter Reader) : Prop :=
  ∃ count, (f.cursor.source.afterTokens count).MeetsBarrier

namespace Follows

theorem refl (f : Formatter Reader) : f.Follows f :=
  ⟨Nat.le_refl _, rfl, 0, rfl⟩

theorem markExpression (f : Formatter Reader) (previous : Category) :
    f.Follows (f.markExpression previous) :=
  ⟨Nat.le_refl _, rfl, 0, rfl⟩

theorem markCall (f : Formatter Reader) (previous : Category) :
    f.Follows (f.markCall previous) := by
  unfold Formatter.markCall
  split
  · exact ⟨Nat.le_refl _, rfl, 0, rfl⟩
  · exact refl f

theorem reportMissing (f : Formatter Reader) (required : Category) :
    f.Follows (f.reportMissing required) :=
  ⟨Nat.le_refl _, rfl, 0, rfl⟩

theorem trans {h : Formatter Reader} (first : f.Follows g) (second : g.Follows h) :
    f.Follows h := by
  obtain ⟨count, source⟩ := first.source
  obtain ⟨further, later⟩ := second.source
  refine ⟨Nat.le_trans second.remaining first.remaining, second.endless.trans first.endless,
    count + further, ?_⟩
  rw [later, source, Reader.afterTokens_add]

theorem barrierAhead (follows : f.Follows g) (ahead : g.BarrierAhead) : f.BarrierAhead := by
  obtain ⟨count, source⟩ := follows.source
  obtain ⟨further, meets⟩ := ahead
  rw [source, Reader.afterTokens_add] at meets
  exact ⟨count + further, meets⟩

end Follows

/-- Where no barrier is met, a fetch uses up the token before it. -/
theorem remaining_advance_of_free (free : f.cursor.lookahead? = none)
    (notEnd : f.kind ≠ .endOfFile) (passes : ¬ f.cursor.source.MeetsBarrier) :
    f.advance.remaining < f.remaining := by
  obtain ⟨token, source⟩ := advance_of_free_reader free
  have before : f.remaining = 1 + f.cursor.source.chars.length := by
    simp [remaining, notEnd, free, TokenSource.size]
  have behind : f.advance.remaining =
      (if f.cursor.source.fetch.1.token.category = .endOfFile then 0 else 1) +
        f.cursor.source.fetch.2.chars.length := by
    simp [remaining, lookahead?_advance, kind, token, source, TokenSource.size]
  rw [behind, before]
  split
  · rename_i last
    have empty : f.cursor.source.fetch.2.chars = [] := by
      rw [Reader.chars_fetch, Reader.toToken_eq_nil last]
      rfl
    rw [empty, List.length_nil]
    omega
  · rename_i goesOn
    have shorter := Reader.length_fetch_lt passes goesOn
    omega

/-- Before the end an advance uses up one of the remaining tokens or comes to a barrier. -/
theorem follows_advance (notEnd : f.kind ≠ .endOfFile) :
    f.advance.remaining < f.remaining ∧ f.Follows f.advance ∨
      f.advance.Stalled ∧ f.BarrierAhead := by
  cases slot : f.cursor.lookahead? with
  | some token =>
    have fewer := remaining_advance_of_put slot notEnd
    refine Or.inl ⟨fewer, Nat.le_of_lt fewer, rfl, 0, ?_⟩
    rw [advance, Cursor.next, slot]
    rfl
  | none =>
    by_cases meets : f.cursor.source.MeetsBarrier
    · exact Or.inr ⟨stalled_advance slot meets, 0, meets⟩
    · have fewer := remaining_advance_of_free slot notEnd meets
      exact Or.inl ⟨fewer, Nat.le_of_lt fewer, rfl, 1, (advance_of_free_reader slot).2⟩

/-- Two ways from a formatter on come to the same place without meeting a barrier, or they are both
given up at one. -/
def Agree (f a b : Formatter Reader) : Prop :=
  a = b ∧ f.Follows a ∨ f.BarrierAhead ∧ a.endless = true ∧ b.endless = true

theorem Agree.after (agree : Agree g a b) (follows : f.Follows g) : Agree f a b := by
  rcases agree with ⟨same, later⟩ | ⟨ahead, given⟩
  · exact Or.inl ⟨same, follows.trans later⟩
  · exact Or.inr ⟨follows.barrierAhead ahead, given⟩

/-- The reading of an expression does not depend on its budget, if that is above the number of
remaining tokens: either it comes to its end, or it is given up at a barrier. -/
theorem expressionFrom_agree {terminator : Category} (noWord : terminator ≠ .upperCaseIdentifier)
    (previous : Category) (braces : Nat) {budget other : Nat} (enough : f.remaining < budget)
    (otherEnough : f.remaining < other) :
    Agree f (expressionFrom terminator previous braces budget f)
      (expressionFrom terminator previous braces other f) := by
  induction budget generalizing terminator previous braces f other with
  | zero => exact absurd enough (Nat.not_lt_zero _)
  | succ budget ih =>
    cases other with
    | zero => exact absurd otherEnough (Nat.not_lt_zero _)
    | succ other =>
      -- What is read behind a token of the expression agrees, or the token is met at a barrier.
      have onward {place : Formatter Reader} (notEnd : place.kind ≠ .endOfFile)
          (follows : f.Follows place) {terminator : Category}
          (noWord : terminator ≠ .upperCaseIdentifier) (previous : Category) (braces : Nat) :
          Agree f (expressionFrom terminator previous braces budget place.advance)
            (expressionFrom terminator previous braces other place.advance) := by
        have within := follows.remaining
        rcases follows_advance notEnd with ⟨fewer, next⟩ | ⟨stalled, ahead⟩
        · exact (ih noWord previous braces (by omega) (by omega)).after (follows.trans next)
        · exact Or.inr ⟨follows.barrierAhead ahead,
            stalled.endless_expressionFrom noWord previous braces budget,
            stalled.endless_expressionFrom noWord previous braces other⟩
      by_cases stops : f.kind = terminator || f.kind = .endOfFile
      · simp only [expressionFrom]
        rw [if_pos stops, if_pos stops]
        exact Or.inl ⟨rfl, Follows.refl f⟩
      · have notEnd : f.kind ≠ .endOfFile := by
          intro last
          simp [last] at stops
        have marked := Follows.markExpression f previous
        have markedKind : (f.markExpression previous).kind ≠ .endOfFile := notEnd
        simp only [expressionFrom]
        rw [if_neg stops, if_neg stops]
        split
        · have called := marked.trans (Follows.markCall _ previous)
          have calledKind : ((f.markExpression previous).markCall previous).kind ≠ .endOfFile := by
            unfold markCall
            split <;> exact notEnd
          rcases onward calledKind called (by decide : Category.rightParen ≠ .upperCaseIdentifier)
            .foreign 0 with ⟨same, inside⟩ | ⟨ahead, given, otherGiven⟩
          · rw [← same]
            split
            · rename_i closes
              exact onward (by simp [closes]) inside noWord .rightParen _
            · exact Or.inl ⟨rfl, inside.trans (Follows.reportMissing _ .rightParen)⟩
          · exact Or.inr ⟨ahead, endless_behind_inner given _ _ budget,
              endless_behind_inner otherGiven _ _ other⟩
        · exact onward markedKind marked noWord .leftBrace _
        · exact Or.inl ⟨rfl, marked⟩
        · exact onward markedKind marked noWord .rightBrace _
        · exact onward markedKind marked noWord _ _

/-- An expression that begins with a name looked at again agrees with one that begins with the name
itself. -/
theorem expression_lookAgain_agree (name : f.kind.isName = true) :
    Agree f ((f.advance.putBack.lookAt f.token).expression .semicolon)
      (f.expression .semicolon) := by
  have again : (f.advance.putBack.lookAt f.token).kind.isName = true := name
  have notEnd : f.kind ≠ .endOfFile := kind_ne_of_name name rfl
  have fewerAgain : f.advance.remaining < (f.advance.putBack.lookAt f.token).remaining := by
    have fewer := remaining_advance_of_put (lookahead?_lookAgain f) notEnd
    rwa [advance_lookAt_putBack] at fewer
  rw [expression_behind_name again, expression_behind_name name, advance_lookAt_putBack]
  rcases follows_advance notEnd with ⟨fewer, next⟩ | ⟨stalled, ahead⟩
  · exact (expressionFrom_agree (by decide) f.kind 0 fewerAgain fewer).after next
  · exact Or.inr ⟨ahead, stalled.endless_expressionFrom (by decide) _ 0 _,
      stalled.endless_expressionFrom (by decide) _ 0 _⟩

/-- Along a reader, statements at a name without a colon are expression statements, unless both are
given up at a barrier. -/
theorem statement_of_name_reader (name : f.kind.isName = true)
    (noLabel : f.advance.kind ≠ .colon) :
    f.statement = f.expressionStatement ∧ f.statement.endless = f.endless ∨
      f.BarrierAhead ∧ f.statement.endless = true ∧ f.expressionStatement.endless = true := by
  have statement : f.statement = (f.advance.putBack.lookAt f.token).expressionStatement :=
    statementWithin_of_name name noLabel f.remaining
  rw [statement, expressionStatement, expressionStatement, endless_endStatement,
    endless_endStatement]
  rcases expression_lookAgain_agree name with ⟨same, follows⟩ | given
  · exact Or.inl ⟨congrArg endStatement same, follows.endless⟩
  · exact Or.inr given

end Readers

/-! ## Along a feed -/

/-- Along a feed a walk is given up only where it was given up before. -/
theorem bodyInvariant_endless (given : Bool) :
    BodyInvariant fun f : Formatter Feed => f.endless = given where
  performInner holds _ := holds
  reportMissing _ holds := holds
  markDeclaration holds := holds
  markExpression _ holds := holds
  joinLeft holds _ := holds
  advance holds := holds
  lookAgain {f} holds _ := by
    rw [putBack_advance]
    exact holds
  countOpened holds := holds
  countClosed holds := holds

/-- A name that is no label begins an expression statement, and to look for the label leaves no
trace: the statement ends in the state in which the expression statement ends, however deep it is
nested and whatever follows the name. Along a feed no loop is given up. Along a reader the same
holds unless a barrier is ahead and neither comes off. -/
theorem looking_for_label_leaves_no_trace :
    (∀ f : Formatter Feed, f.kind.isName = true → f.advance.kind ≠ .colon →
      (∀ depth, statementWithin (depth + 1) f = f.statement) ∧
        f.statement = f.expressionStatement ∧ f.statement.endless = f.endless) ∧
    ∀ f : Formatter Reader, f.kind.isName = true → f.advance.kind ≠ .colon →
      (∀ depth, statementWithin (depth + 1) f = f.statement) ∧
        (f.statement = f.expressionStatement ∧ f.statement.endless = f.endless ∨
          f.BarrierAhead ∧ f.statement.endless = true ∧ f.expressionStatement.endless = true) := by
  have anyDepth {σ : Type} [TokenSource σ] {f : Formatter σ} (name : f.kind.isName = true)
      (noLabel : f.advance.kind ≠ .colon) (depth : Nat) :
      statementWithin (depth + 1) f = f.statement :=
    (statementWithin_of_name name noLabel depth).trans
      (statementWithin_of_name name noLabel f.remaining).symm
  refine ⟨fun f name noLabel => ⟨anyDepth name noLabel, statement_of_name name noLabel, ?_⟩,
    fun f name noLabel => ⟨anyDepth name noLabel, statement_of_name_reader name noLabel⟩⟩
  exact (bodyInvariant_endless f.endless).statement rfl

/-- A directive and the end follow the name of the feed, and a directive and a call that of the
reader, in front of a barrier. -/
theorem looking_for_label_leaves_no_trace_directive :
    let feed : Formatter Feed :=
      (ofTokens
        { ahead := [{ token := { category := .identifier, lexeme := ['a'], line := 1 } }]
          lastLine := 2
          closing := [.endLine false, .directive "#x".toList] } false []).advance
    let reader : Formatter Reader :=
      (ofTokens (Reader.ofSource (Source.ofText "\x7ba\n#x\n(b)++;\u24b6".toList)).1 true
        []).advance.advance.endLine.indent
    (feed.kind.isName = true ∧ feed.advance.kind ≠ .colon ∧
      feed.statement = feed.expressionStatement) ∧
    (reader.kind.isName = true ∧ reader.advance.kind ≠ .colon ∧
      reader.statement = reader.expressionStatement) := by
  intro feed reader
  have feedName : feed.kind.isName = true := by decide +kernel
  have feedNoLabel : feed.advance.kind ≠ .colon := by decide +kernel
  have readerName : reader.kind.isName = true := by decide +kernel
  have readerNoLabel : reader.advance.kind ≠ .colon := by decide +kernel
  have comesOff : reader.statement.endless = false := by decide +kernel
  clear_value feed reader
  refine ⟨⟨feedName, feedNoLabel,
      (looking_for_label_leaves_no_trace.1 feed feedName feedNoLabel).2.1⟩,
    readerName, readerNoLabel, ?_⟩
  rcases (looking_for_label_leaves_no_trace.2 reader readerName readerNoLabel).2 with
    ⟨same, -⟩ | ⟨-, given, -⟩
  · exact same
  · rw [comesOff] at given
    contradiction

end Formatter

end CListing
