import CListing.Proofs.Formatter.BraceLoss
import CListing.Proofs.Formatter.Visits
import CListing.Proofs.Reader.ItemFeed
import Mathlib.Logic.Relation

/-!
# Where blocks end

A block ends at its matching brace exactly if every expression inside it takes as many closing
braces as opening ones. Statements and declarations agree on the nesting whatever the tokens are; an
expression need not, because it ends at its terminator even inside braces, and then the brace that
belongs to it ends a block around it. A `switch` without an opening brace of its own is ended by the
brace of the block around it as well.
-/

namespace CListing.Formatter

open Round

/-- The expression takes as many closing braces as opening ones. -/
def KeepsBraces (terminator : Category) (formatter : Formatter Feed) : Prop :=
  braceSurplus (formatter.expression terminator).ahead = braceSurplus formatter.ahead

namespace Call

/-- Every expression that the call reads, itself or through other calls, keeps its braces. -/
def Kept (call : Call) : Prop :=
  ∀ terminator f, Relation.ReflTransGen Makes call (expression terminator f) →
    f.KeepsBraces terminator

/-- Every expression that the calls made by the call read keeps its braces. -/
def KeptInside (call : Call) : Prop :=
  ∀ callee, Makes call callee → callee.Kept

/-- Every `switch` that the call reads has an opening brace. -/
def Braced (call : Call) : Prop :=
  ∀ f, Relation.ReflTransGen Makes call (choice f) → f.advance.parenthesized.kind = .leftBrace

/-- The call leaves no brace open exactly if the expressions in it keep theirs. -/
def Nested (call : Call) : Prop :=
  Nests 0 call.Kept call.formatter call.result

/-- So do all calls made by the call. -/
def NestedInside (call : Call) : Prop :=
  ∀ callee, Makes call callee → callee.Nested

/-- The token is the one that the call is for. -/
def Begins : Call → Prop
  | block f => f.kind = .leftBrace
  | conditional f => f.kind = .kwIf
  | loop f => f.kind = .kwWhile ∨ f.kind = .kwFor
  | doLoop f => f.kind = .kwDo
  | choice f => f.kind = .kwSwitch
  | _ => True

/-- Calls are made at their tokens. -/
theorem Makes.begins {caller callee : Call} (makes : Makes caller callee) : callee.Begins := by
  cases makes with
  | @ofStatement f start callee label begins =>
    obtain ⟨_, view⟩ := exists_unlabelled begins
    cases view with
    | block kind | choice kind | conditional kind | loop kind | doLoop kind => exact kind
    | expression | value => trivial
  | blockOfSubstatement begins => exact begins
  | againOfConditional _ again => exact again
  | _ => trivial

theorem Braced.callee {caller callee : Call} (braced : caller.Braced)
    (makes : Makes caller callee) : callee.Braced :=
  fun f reads => braced f (.head makes reads)

/-- A call that is no expression keeps braces if the calls made by it do. -/
theorem kept_iff_keptInside {call : Call}
    (noExpression : ∀ terminator f, call ≠ expression terminator f) :
    call.Kept ↔ call.KeptInside := by
  constructor
  · intro kept callee makes terminator f reads
    exact kept terminator f (.head makes reads)
  · intro inside terminator f reads
    rcases Relation.ReflTransGen.cases_head reads with same | ⟨callee, makes, later⟩
    · exact absurd same (noExpression terminator f)
    · exact inside callee makes terminator f later

variable {f : Formatter Feed}

/-! ## Expressions and declarations -/

theorem nested_expression {terminator : Category}
    (each : (expression terminator f).NestedInside) : (expression terminator f).Nested := by
  have finishes := (consuming_expressionLoop terminator).finishes (.foreign, 0, f)
  obtain ⟨left, takes, inside⟩ :=
    @takes_expressionLoop _ _ _ (fun called => (expression .rightParen called).Kept) finishes (by
      rintro ⟨previous, braces, later⟩ reaches called ⟨goes, opens, rfl⟩
      obtain ⟨left, takes, balance⟩ := each _ (.innerOfExpression reaches goes opens)
      refine ⟨left, takes, fun none_left => ?_⟩
      rcases balance with all | ⟨some_left, _⟩
      · exact all.mp none_left
      · omega)
  have surplus : (0 : Nat) + braceSurplus f.ahead =
      left + braceSurplus (f.expression terminator).ahead := takes.surplus
  refine ⟨left, takes, Or.inl ⟨?_, ?_⟩⟩
  · rintro rfl other g reads
    rcases Relation.ReflTransGen.cases_head reads with same | ⟨callee, makes, later⟩
    · obtain ⟨rfl, rfl⟩ := Call.expression.inj same
      rw [KeepsBraces]
      omega
    · cases makes with
      | innerOfExpression reaches goes opens =>
        exact inside rfl _ reaches _ ⟨goes, opens, rfl⟩ other g later
  · intro kept
    have own : braceSurplus (f.expression terminator).ahead = braceSurplus f.ahead :=
      kept terminator f .refl
    omega

theorem nested_declaration (each : (declaration f).NestedInside) : (declaration f).Nested := by
  have finishes := consuming_declarationLoop.finishes (0, f)
  have initial : ∀ later, Reaches declarationRound (0, f) later →
      ∀ initializer, InitializerOf later initializer →
        Nests 0 (expression .semicolon initializer).Kept initializer
          (initializer.expression .semicolon) := by
    rintro ⟨braces, later⟩ reaches _ ⟨assigns, rfl⟩
    exact each _ (.initializerOfDeclaration reaches assigns)
  have nests := (nests_declarationLoop finishes initial).before (takes_endStatement _)
  refine nests.congr ?_
  rw [kept_iff_keptInside (by simp)]
  constructor
  · intro all callee makes
    cases makes with
    | initializerOfDeclaration reaches assigns => exact all _ reaches _ ⟨assigns, rfl⟩
  · rintro inside ⟨braces, later⟩ reaches _ ⟨assigns, rfl⟩
    exact inside _ (.initializerOfDeclaration reaches assigns)

/-! ## Statements -/

theorem nested_substatement (each : (substatement f).NestedInside) : (substatement f).Nested := by
  rw [Nested, kept_iff_keptInside (by simp)]
  by_cases begins : f.kind = .leftBrace
  · have result : f.substatement = f.compoundStatement := if_pos begins
    have inside : Nests 0 (block f).Kept f f.substatement := by
      rw [result]
      exact each _ (.blockOfSubstatement begins)
    exact inside.congr (by simp [KeptInside, makes_substatement_iff, begins])
  · have result : f.substatement = f.indent.statement.unindent := if_neg begins
    have inside : Nests 0 (statement f.indent).Kept f f.substatement := by
      rw [result]
      exact Nests.unindent (Nests.ofIndent (each _ (.statementOfSubstatement begins)))
    exact inside.congr (by simp [KeptInside, makes_substatement_iff, begins])

/-- A keyword, a condition and a statement. -/
theorem nests_controlled (keyword : f.kind.isPlain = true)
    (condition : f.advance.kind = .leftParen →
      (expression .rightParen f.advance.advance).Nested)
    (body : (substatement f.advance.parenthesized.endLine).Nested) :
    Nests 0 ((f.advance.kind = .leftParen → (expression .rightParen f.advance.advance).Kept) ∧
      (substatement f.advance.parenthesized.endLine).Kept)
      f (controlledVia Formatter.statement f) := by
  have first : Takes 0 f 0 f.advance := .advance_plain keyword 0
  exact Nests.after first ((nests_parenthesized condition).endLine.append body)

theorem nested_loop (begins : (loop f).Begins) (each : (loop f).NestedInside) :
    (loop f).Nested := by
  have keyword : f.kind.isPlain = true := by
    rcases begins with begins | begins <;> rw [begins] <;> rfl
  rw [Nested, kept_iff_keptInside (by simp)]
  refine (nests_controlled keyword (fun opens => each _ (.conditionOfLoop opens))
    (each _ .bodyOfLoop)).congr ?_
  simp [KeptInside, makes_loop_iff, or_imp, forall_and]

theorem nested_doLoop (begins : (doLoop f).Begins) (each : (doLoop f).NestedInside) :
    (doLoop f).Nested := by
  have first : Takes 0 f 0 f.advance.endLine :=
    (Takes.advance_plain (by rw [show f.kind = .kwDo from begins]; rfl) 0).endLine
  have body : Nests 0 (substatement f.advance.endLine).Kept f.advance.endLine
      f.advance.endLine.substatement := each _ .bodyOfDoLoop
  have keyword := body.before (@Takes.expect _ .kwWhile rfl 0)
  have condition := nests_parenthesized fun opens =>
    each _ (.conditionOfDoLoop (rfl : (f.advance.endLine.substatement).expect .kwWhile = _) opens)
  have whole := (Nests.after first (keyword.append condition)).before (takes_endStatement _)
  rw [Nested, kept_iff_keptInside (by simp)]
  refine whole.congr ?_
  simp [KeptInside, makes_doLoop_iff, or_imp, forall_and]

theorem nested_conditional (begins : (conditional f).Begins)
    (each : (conditional f).NestedInside) : (conditional f).Nested := by
  have keyword : f.kind.isPlain = true := by
    rw [show f.kind = .kwIf from begins]
    rfl
  have first := nests_controlled keyword (fun opens => each _ (.conditionOfConditional opens))
    (each _ .thenOfConditional)
  rw [Nested, kept_iff_keptInside (by simp)]
  change Nests 0 _ f f.ifStatement
  rw [ifStatement_eq]
  dsimp only
  split
  · rename_i goes
    have next : Takes 0 (controlledVia Formatter.statement f) 0
        (controlledVia Formatter.statement f).advance :=
      .advance_plain (by rw [goes]; rfl) 0
    split
    · rename_i again
      have rest := each _ (.againOfConditional goes again)
      refine ((first.before next).append rest).congr ?_
      simp [KeptInside, makes_conditional_iff, goes, again, or_imp, forall_and, and_assoc]
    · rename_i other
      have rest := each _ (.elseOfConditional goes other)
      refine ((first.before next).append rest).congr ?_
      simp [KeptInside, makes_conditional_iff, goes, other, or_imp, forall_and, and_assoc]
  · rename_i noElse
    refine first.congr ?_
    simp [KeptInside, makes_conditional_iff, noElse, or_imp, forall_and]

/-- A section of a `switch`: its label and its statements. -/
theorem nests_section
    (label : f.atCase = true → (expression .colon f).Nested)
    (statements : ∀ later, Reaches sectionRound (sectionBody f) later →
      (!later.atCase && !later.atBlockEnd) = true → (statement later).Nested) :
    Nests 0 ((f.atCase = true → (expression .colon f).Kept) ∧
      ∀ later, Reaches sectionRound (sectionBody f) later →
        (!later.atCase && !later.atBlockEnd) = true → (statement later).Kept) f
      (switchSectionVia Formatter.statement f) := by
  have body := Nests.whileLoop consuming_section statements
  have head : Nests 0 (f.atCase = true → (expression .colon f).Kept) f (sectionBody f) := by
    unfold sectionBody
    split
    · rename_i isCase
      have colon : Takes 0 (f.expression .colon) 0 f.caseLabel.indent :=
        @Takes.expect ((f.expression .colon).adjust .left) .colon rfl 0
      refine (Nests.before (label isCase) colon).congr ?_
      exact ⟨fun kept _ => kept, fun kept => kept isCase⟩
    · rename_i noCase
      exact .of_takes (.nothing rfl 0) fun isCase => absurd isCase noCase
  exact head.append body

/-- Where the reading of a `switch` comes before its closing brace. -/
def choiceEnd (f : Formatter Feed) : Formatter Feed :=
  whileLoop (!·.atBlockEnd) (switchSectionVia Formatter.statement) (insideChoice f)

theorem switchStatement_eq (f : Formatter Feed) :
    f.switchStatement = ((choiceEnd f).unindent.expect .rightBrace).endLine :=
  rfl

theorem atBlockEnd_choiceEnd (f : Formatter Feed) : (choiceEnd f).unindent.atBlockEnd = true := by
  have progress (g : Formatter Feed) (goes : (!g.atBlockEnd) = true) :
      (switchSectionVia Formatter.statement g).remaining < g.remaining :=
    switchSectionVia_lt (by simpa using goes)
  have stops := condition_repeatWhile progress (Nat.lt_succ_self (insideChoice f).remaining)
  rwa [Bool.not_eq_false'] at stops

/-- Where the reading of a block comes before its closing brace. -/
def blockEnd (f : Formatter Feed) : Formatter Feed :=
  whileLoop (!·.atBlockEnd) Formatter.statement (insideBlock f).blockDeclarations

theorem compoundStatement_eq (f : Formatter Feed) :
    f.compoundStatement = ((blockEnd f).endLine.unindent.expect .rightBrace).endLine :=
  rfl

theorem atBlockEnd_blockEnd (f : Formatter Feed) :
    (blockEnd f).endLine.unindent.atBlockEnd = true := by
  have progress (g : Formatter Feed) (goes : (!g.atBlockEnd) = true) :
      g.statement.remaining < g.remaining :=
    statement_lt (by simpa using goes)
  have stops := condition_repeatWhile progress
    (Nat.lt_succ_self (insideBlock f).blockDeclarations.remaining)
  rwa [Bool.not_eq_false'] at stops

theorem nested_choice (begins : (choice f).Begins)
    (opens : f.advance.parenthesized.kind = .leftBrace) (each : (choice f).NestedInside) :
    (choice f).Nested := by
  have first : Takes 0 f 0 f.advance :=
    .advance_plain (by rw [show f.kind = .kwSwitch from begins]; rfl) 0
  have condition := nests_parenthesized fun paren => each _ (.conditionOfChoice paren)
  have enters : Takes 0 f.advance.parenthesized 1 (insideChoice f) := by
    have step := @Takes.advance_leftBrace f.advance.parenthesized.endLine opens 0
    unfold insideChoice Formatter.expect
    rwa [if_pos (show f.advance.parenthesized.endLine.kind = .leftBrace from opens)]
  have sections : Nests 0 _ (insideChoice f) (choiceEnd f) :=
    Nests.whileLoop consuming_sections fun place reaches goes =>
      nests_section (f := place)
        (fun label => each _ (.labelOfChoice reaches (by simpa using goes) label))
        (fun later inside continues =>
          each _ (.statementOfChoice reaches (by simpa using goes) inside continues))
  have closed := (Nests.enclosed enters sections.unindent (atBlockEnd_choiceEnd f)).endLine
  have whole := Nests.after first (condition.append closed)
  rw [← switchStatement_eq] at whole
  rw [Nested, kept_iff_keptInside (by simp)]
  refine whole.congr ⟨?_, ?_⟩
  · rintro ⟨keptCondition, keptSections⟩ callee makes
    cases makes with
    | conditionOfChoice paren => exact keptCondition paren
    | labelOfChoice reaches goes label =>
      exact (keptSections _ reaches (by simpa using goes)).1 label
    | statementOfChoice reaches goes inside continues =>
      exact (keptSections _ reaches (by simpa using goes)).2 _ inside continues
  · rintro inside
    refine ⟨fun paren => inside _ (.conditionOfChoice paren), fun place reaches goes => ?_⟩
    rw [Bool.not_eq_true'] at goes
    exact ⟨fun label => inside _ (.labelOfChoice reaches goes label),
      fun later within continues => inside _ (.statementOfChoice reaches goes within continues)⟩

/-- The declarations and statements of a block. -/
theorem nests_insideBlock (each : (block f).NestedInside) :
    Nests 0 (block f).KeptInside (insideBlock f) (blockEnd f) := by
  have declarations := Nests.whileLoop consuming_declarations (f := insideBlock f)
    fun later reaches starts => each _ (.declarationOfBlock reaches starts)
  have same : (insideBlock f).blockDeclarations.ahead =
      (whileLoop (·.kind.startsDeclaration) Formatter.declaration (insideBlock f)).ahead := by
    unfold blockDeclarations
    split
    · rfl
    · rename_i noDeclaration
      rw [loop_of_not consuming_declarations (by simpa using noDeclaration)]
  have statements := Nests.whileLoop consuming_statements (f := (insideBlock f).blockDeclarations)
    fun later reaches goes => each _ (.statementOfBlock reaches (by simpa using goes))
  refine ((declarations.before (.nothing same.symm 0)).append statements).congr ⟨?_, ?_⟩
  · rintro ⟨keptDeclarations, keptStatements⟩ callee makes
    cases makes with
    | declarationOfBlock reaches starts => exact keptDeclarations _ reaches starts
    | statementOfBlock reaches goes => exact keptStatements _ reaches (by simpa using goes)
  · rintro inside
    refine ⟨fun later reaches starts => inside _ (.declarationOfBlock reaches starts), ?_⟩
    intro later reaches goes
    exact inside _ (.statementOfBlock reaches (by simpa using goes))

theorem nested_block (begins : (block f).Begins) (each : (block f).NestedInside) :
    (block f).Nested := by
  have enters : Takes 0 f 1 (insideBlock f) := by
    have step := Takes.advance_leftBrace begins 0
    unfold insideBlock Formatter.expect
    rwa [if_pos (show f.kind = .leftBrace from begins)]
  have inside := (nests_insideBlock each).endLine.unindent
  have whole := (Nests.enclosed enters inside (atBlockEnd_blockEnd f)).endLine
  rw [← compoundStatement_eq] at whole
  rw [Nested, kept_iff_keptInside (by simp)]
  exact whole

/-- A statement without a label. -/
theorem nests_unlabelled {start : Formatter Feed}
    (each : ∀ callee, unlabelled? start = some callee → callee.Nested) :
    Nests 0 (∀ callee, unlabelled? start = some callee → callee.Kept) start
      (unlabelledVia Formatter.statement start) := by
  have view := unlabelled start
  generalize unlabelled? start = callee? at each view ⊢
  generalize unlabelledVia Formatter.statement start = after at view ⊢
  have keyword {category : Category} (begins : start.kind = category)
      (plain : category.isPlain = true) : Takes 0 start 0 start.advance :=
    .advance_plain (begins ▸ plain) 0
  cases view with
  | block | choice | conditional | loop | doLoop => exact (each _ rfl).congr (by simp)
  | expression => exact ((each _ rfl).before (takes_endStatement _)).congr (by simp)
  | value begins filled =>
    rw [returnStatement, if_neg filled]
    have ended := (each _ rfl).before (takes_endStatement _)
    exact (Nests.after (keyword begins rfl) ended).congr (by simp)
  | bareReturn begins bare =>
    rw [returnStatement, if_pos bare]
    exact .of_takes ((keyword begins rfl).trans (takes_endStatement _)) (by simp)
  | jump begins =>
    have first : Takes 0 start 0 start.advance :=
      begins.elim (keyword · rfl) (keyword · rfl)
    exact .of_takes (first.trans (takes_endStatement _)) (by simp)
  | goTo begins =>
    have label : Takes 0 start.advance 0 start.gotoStatement := by
      unfold gotoStatement
      dsimp only
      split
      · rename_i name
        exact (Takes.advance_plain (by rw [name]; rfl) 0).trans (takes_endStatement _)
      · exact (Takes.expect rfl 0).trans (takes_endStatement _)
    exact .of_takes ((keyword begins rfl).trans label) (by simp)

theorem isPlain_of_isName {category : Category} (name : category.isName = true) :
    category.isPlain = true := by
  cases category <;> first | rfl | contradiction

theorem nested_statement (each : (statement f).NestedInside) : (statement f).Nested := by
  have inside {start : Formatter Feed} (label : afterLabel? f = some start)
      (takes : Takes 0 f 0 start) :
      Nests 0 (statement f).KeptInside f (unlabelledVia Formatter.statement start) := by
    have nests := nests_unlabelled fun callee begins => each callee (.ofStatement label begins)
    exact (Nests.after takes nests).congr (by simp [KeptInside, makes_statement_iff, label])
  have behind (name : f.kind.isName = true) (colon : f.advance.kind = .colon) :
      Takes 0 f 0 (f.advance.adjust .left).advance := by
    have first : Takes 0 f 0 f.advance := .advance_plain (isPlain_of_isName name) 0
    have second : Takes 0 (f.advance.adjust .left) 0 (f.advance.adjust .left).advance :=
      .advance_plain (by rw [show (f.advance.adjust .left).kind = .colon from colon]; rfl) 0
    exact first.trans second
  rw [Nested, kept_iff_keptInside (by simp)]
  change Nests 0 _ f f.statement
  have view := labelled f
  generalize label : afterLabel? f = start? at view
  generalize f.statement = after at view ⊢
  cases view with
  | bare => exact inside label (.nothing rfl 0)
  | name name => exact inside label (.nothing (ahead_lookAgain name).symm 0)
  | label name colon => exact inside label (behind name colon)
  | closed name colon =>
    exact .of_takes (behind name colon) (by simp [KeptInside, makes_statement_iff, label])

/-! ## Blocks -/

/-- Calls leave no brace open exactly if the expressions in them keep theirs, wherever each `switch`
has its opening brace. -/
theorem nested (call : Call) (begins : call.Begins) (braced : call.Braced) : call.Nested := by
  induction call using wellFounded_makes.induction with
  | _ call ih =>
    have each : call.NestedInside := fun callee makes =>
      ih callee makes makes.begins (braced.callee makes)
    cases call with
    | statement f => exact nested_statement each
    | substatement f => exact nested_substatement each
    | block f => exact nested_block begins each
    | conditional f => exact nested_conditional begins each
    | loop f => exact nested_loop begins each
    | doLoop f => exact nested_doLoop begins each
    | choice f => exact nested_choice begins (braced f .refl) each
    | declaration f => exact nested_declaration each
    | expression terminator f => exact nested_expression each

end Call

open Call

/-- A block whose braces are balanced never ends behind its closing brace, and it ends there exactly
if every expression in it takes as many closing braces as opening ones, provided that each `switch`
in it has an opening brace. -/
theorem compoundStatement_ahead_iff {f : Formatter Feed} {opening closing : Token}
    {body after : List Token} (tokens : f.ahead = opening :: (body ++ closing :: after))
    (opens : opening.category = .leftBrace) (closes : closing.category = .rightBrace)
    (balanced : openBraces? 0 body = some 0)
    (choices : ∀ g, Relation.TransGen Makes (block f) (choice g) →
      g.advance.parenthesized.kind = .leftBrace) :
    after <:+ f.compoundStatement.ahead ∧
      (f.compoundStatement.ahead = after ↔
        ∀ terminator g, Relation.TransGen Makes (block f) (.expression terminator g) →
          g.KeepsBraces terminator) := by
  have notEnd : f.kind ≠ .endOfFile := by
    intro last
    rw [ahead_of_end last] at tokens
    contradiction
  obtain ⟨look, inside⟩ := List.cons.inj ((ahead_advance notEnd).symm.trans tokens)
  have begins : f.kind = .leftBrace := by rw [kind, look, opens]
  have each : (block f).NestedInside := fun callee makes =>
    nested callee makes.begins fun g reads => choices g (.head' makes reads)
  obtain ⟨left, ⟨inner, split, found⟩, balance⟩ := nests_insideBlock each
  have entered : (insideBlock f).ahead = f.advance.ahead := by
    unfold insideBlock expect
    rw [if_pos begins]
    rfl
  rw [entered, inside] at split
  have ends := atBlockEnd_blockEnd f
  rw [atBlockEnd, Bool.or_eq_true, decide_eq_true_iff, decide_eq_true_iff] at ends
  have kept : (block f).KeptInside ↔ ∀ terminator g,
      Relation.TransGen Makes (block f) (.expression terminator g) → g.KeepsBraces terminator := by
    constructor
    · rintro all terminator g reads
      obtain ⟨callee, makes, later⟩ := Relation.TransGen.head'_iff.mp reads
      exact all callee makes terminator g later
    · rintro all callee makes terminator g later
      exact all terminator g (.head' makes later)
  rcases ends with brace | last
  · have result : f.compoundStatement = (blockEnd f).endLine.unindent.advance.endLine := by
      rw [compoundStatement_eq, expect, if_pos brace]
    have some_ahead : (blockEnd f).ahead =
        (blockEnd f).endLine.unindent.token :: f.compoundStatement.ahead := by
      rw [result]
      exact @ahead_advance (blockEnd f).endLine.unindent (by simp [brace])
    rw [some_ahead] at split balance
    obtain ⟨suffix, same⟩ := ends_of_openBraces? split closes brace balanced found
    refine ⟨suffix, same.trans ?_⟩
    rw [← kept]
    exact balance.resolve_right fun cut => List.cons_ne_nil _ _ cut.2
  · -- The closing brace is among the tokens that would have been taken.
    have none_ahead : (blockEnd f).ahead = [] := @ahead_of_end (blockEnd f).endLine.unindent last
    rw [none_ahead, List.append_nil] at split
    have tooMany : openBraces? 0 (closing :: after) = none := by
      rw [openBraces?, closes]
      rfl
    rw [← split, openBraces?_append, balanced, Option.bind_some, tooMany] at found
    contradiction

/-! ## Blocks without a choice -/

/-- No token ahead is a `switch`. -/
def WithoutSwitch (f : Formatter Feed) : Prop :=
  f.kind ≠ .kwSwitch ∧ (∀ token ∈ f.cursor.lookahead?, token.category ≠ .kwSwitch) ∧
    ∀ fetch ∈ f.cursor.source.ahead, fetch.token.category ≠ .kwSwitch

theorem WithoutSwitch.advance {f : Formatter Feed} (without : f.WithoutSwitch) :
    f.advance.WithoutSwitch := by
  obtain ⟨_, put, source⟩ := without
  cases slot : f.cursor.lookahead? with
  | some token =>
    rw [advance_of_put slot]
    exact ⟨put token slot, by simp, source⟩
  | none =>
    rw [advance_of_free slot]
    rcases f.cursor.source.cases_ahead with ⟨empty, _⟩ | ⟨first, rest, split⟩
    · rw [Feed.fetch_of_ahead_eq_nil empty]
      exact ⟨by simp [kind, Feed.fetchEnd, Token.ending], by simp, source⟩
    · rw [split] at source ⊢
      exact ⟨source first List.mem_cons_self, by simp,
        fun fetch member => source fetch (List.mem_cons_of_mem _ member)⟩

theorem invariant_withoutSwitch : BodyInvariant WithoutSwitch where
  performInner holds _ := holds
  reportMissing _ holds := holds
  markDeclaration holds := holds
  markExpression _ holds := holds
  joinLeft holds _ := holds
  advance holds := holds.advance
  lookAgain {f} holds name := by
    obtain ⟨next, _, source⟩ := holds.advance
    rw [putBack_advance]
    refine ⟨holds.1, ?_, source⟩
    intro token again
    obtain rfl := Option.some.inj again
    exact next
  countOpened holds := holds
  countClosed holds := holds

/-- Where no token ahead is a `switch`, none is read. -/
theorem WithoutSwitch.not_reads {call : Call} (without : call.formatter.WithoutSwitch)
    {f : Formatter Feed} : ¬ Relation.TransGen Makes call (choice f) := by
  intro reads
  have kept {callee : Call} (reads : Relation.TransGen Makes call callee) :
      callee.formatter.WithoutSwitch := by
    induction reads with
    | single makes => exact invariant_withoutSwitch.makes makes without
    | tail _ makes ih => exact invariant_withoutSwitch.makes makes ih
  obtain ⟨caller, _, makes⟩ := Relation.TransGen.tail'_iff.mp reads
  exact (kept reads).1 makes.begins

/-- The formatter at the first token of a text. -/
def atStart (text : String) : Formatter Feed :=
  (ofTokens (Feed.ofItems ((Source.ofText text.toList).items?.getD [])) false []).advance

/-- A block with an expression and a block inside it ends at its closing brace. -/
theorem compoundStatement_ahead_iff_nested :
    ∃ opening body closing after,
      (atStart "\x7bx\x7ba\x7d;\x7bb;\x7d\x7dy").ahead = opening :: (body ++ closing :: after) ∧
        opening.category = .leftBrace ∧ closing.category = .rightBrace ∧
        openBraces? 0 body = some 0 ∧
        (∀ g,
          Relation.TransGen Makes (block (atStart "\x7bx\x7ba\x7d;\x7bb;\x7d\x7dy"))
              (choice g) →
            g.advance.parenthesized.kind = .leftBrace) ∧
        (atStart "\x7bx\x7ba\x7d;\x7bb;\x7d\x7dy").compoundStatement.ahead = after ∧
        ∀ terminator g,
          Relation.TransGen Makes (block (atStart "\x7bx\x7ba\x7d;\x7bb;\x7d\x7dy"))
            (.expression terminator g) → g.KeepsBraces terminator := by
  have tokens : (atStart "\x7bx\x7ba\x7d;\x7bb;\x7d\x7dy").ahead =
      ⟨.leftBrace, ['\x7b'], 0⟩ ::
        ([⟨.identifier, ['x'], 0⟩, ⟨.leftBrace, ['\x7b'], 0⟩, ⟨.identifier, ['a'], 0⟩,
          ⟨.rightBrace, ['\x7d'], 0⟩, ⟨.semicolon, [';'], 0⟩, ⟨.leftBrace, ['\x7b'], 0⟩,
          ⟨.identifier, ['b'], 0⟩, ⟨.semicolon, [';'], 0⟩, ⟨.rightBrace, ['\x7d'], 0⟩] ++
            ⟨.rightBrace, ['\x7d'], 0⟩ :: [⟨.identifier, ['y'], 0⟩]) := by
    decide +kernel
  have without : (atStart "\x7bx\x7ba\x7d;\x7bb;\x7d\x7dy").WithoutSwitch := by
    unfold WithoutSwitch
    decide +kernel
  have choices : ∀ g, Relation.TransGen Makes (block (atStart "\x7bx\x7ba\x7d;\x7bb;\x7d\x7dy"))
      (choice g) → g.advance.parenthesized.kind = .leftBrace :=
    fun g reads => absurd reads (@WithoutSwitch.not_reads (block _) without g)
  have ends : (atStart "\x7bx\x7ba\x7d;\x7bb;\x7d\x7dy").compoundStatement.ahead =
      [⟨.identifier, ['y'], 0⟩] := by
    decide +kernel
  have iff := (compoundStatement_ahead_iff tokens rfl rfl rfl choices).2
  exact ⟨_, _, _, _, tokens, rfl, rfl, rfl, choices, ends, iff.mp ends⟩

/-- A block whose braces are balanced ends at its closing brace. -/
def EndsAtBrace (f : Formatter Feed) : Prop :=
  ∀ opening body closing after, f.ahead = opening :: (body ++ closing :: after) →
    opening.category = .leftBrace → closing.category = .rightBrace → openBraces? 0 body = some 0 →
      f.compoundStatement.ahead = after

/-- A semicolon inside the braces of an expression ends the expression, and the brace behind it ends
the block; the brace of the block ends a `switch` that has none. -/
theorem not_endsAtBrace :
    ¬ (atStart "\x7bx\x7ba;\x7d;\x7dy").EndsAtBrace ∧
      ¬ (atStart "\x7bswitch(x)a;\x7dy").EndsAtBrace := by
  constructor
  · intro ends
    have tokens : (atStart "\x7bx\x7ba;\x7d;\x7dy").ahead =
        ⟨.leftBrace, ['\x7b'], 0⟩ ::
          ([⟨.identifier, ['x'], 0⟩, ⟨.leftBrace, ['\x7b'], 0⟩, ⟨.identifier, ['a'], 0⟩,
            ⟨.semicolon, [';'], 0⟩, ⟨.rightBrace, ['\x7d'], 0⟩, ⟨.semicolon, [';'], 0⟩] ++
              ⟨.rightBrace, ['\x7d'], 0⟩ :: [⟨.identifier, ['y'], 0⟩]) := by
      decide +kernel
    have behind := ends _ _ _ _ tokens rfl rfl rfl
    revert behind
    decide +kernel
  · intro ends
    have tokens : (atStart "\x7bswitch(x)a;\x7dy").ahead =
        ⟨.leftBrace, ['\x7b'], 0⟩ ::
          ([⟨.kwSwitch, "switch".toList, 0⟩, ⟨.leftParen, ['('], 0⟩, ⟨.identifier, ['x'], 0⟩,
            ⟨.rightParen, [')'], 0⟩, ⟨.identifier, ['a'], 0⟩, ⟨.semicolon, [';'], 0⟩] ++
              ⟨.rightBrace, ['\x7d'], 0⟩ :: [⟨.identifier, ['y'], 0⟩]) := by
      decide +kernel
    have behind := ends _ _ _ _ tokens rfl rfl rfl
    revert behind
    decide +kernel

end CListing.Formatter
