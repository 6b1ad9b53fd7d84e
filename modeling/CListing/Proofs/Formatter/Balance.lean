import CListing.Proofs.Formatter.Blocks
import CListing.Proofs.Formatter.Levels

/-!
# What statements leave of their levels

A statement comes back to the level where it began, on every way out of it and whatever its tokens
are. There is one exception: if the source ends inside the bodies of a declaration, the levels of
those bodies are left. That is the last declaration that the statement reads.
-/

namespace CListing.Formatter

open Round

/-- From the first state to the second the walk goes the given levels deeper and never above the
first one, and `left` more for bodies of declarations that were not ended. Those are left at the
end of the source only. -/
structure Climbs (f : Formatter Feed) (level : Nat) (g : Formatter Feed) (left : Nat) : Prop where
  regular : g.Regular
  script : ∃ more, g.script.toList = f.script.toList ++ more ∧
    depth? 0 more = some (level + left)
  bodies : g.bodies = f.bodies + left
  stays : f.kind = .endOfFile → g.kind = .endOfFile ∧ left = 0
  ends : 0 < left → g.kind = .endOfFile

/-- The walk climbs so, and the bodies left are those inside which a declaration is cut off. -/
def Rises (f : Formatter Feed) (level : Nat) (g : Formatter Feed) (cut : Nat → Prop) : Prop :=
  ∃ left, Climbs f level g left ∧ ∀ braces, 0 < braces → (cut braces ↔ braces = left)

namespace Rises

variable {f g h : Formatter Feed} {level : Nat} {cut others : Nat → Prop}

theorem congr (rises : Rises f level g cut) (same : ∀ braces, cut braces ↔ others braces) :
    Rises f level g others := by
  rwa [← funext fun braces => propext (same braces)]

theorem refl (regular : f.Regular) : Rises f 0 f fun _ => False := by
  refine ⟨0, ⟨regular, ⟨[], by simp, rfl⟩, by simp, fun last => ⟨last, rfl⟩, nofun⟩, ?_⟩
  intro braces some_braces
  exact iff_of_false id (Nat.ne_of_gt some_braces)

/-- A part that begins where another one ends. -/
theorem append (rises : Rises f level g cut) (part : g.Regular → Rises g 0 h others) :
    Rises f level h fun braces => cut braces ∨ others braces := by
  obtain ⟨left, climbs, cuts⟩ := rises
  obtain ⟨more, climbsMore, cutsMore⟩ := part climbs.regular
  obtain ⟨script, split, found⟩ := climbs.script
  obtain ⟨rest, splitMore, foundMore⟩ := climbsMore.script
  -- Behind the end no more bodies are left.
  have one_only : left = 0 ∨ more = 0 := by
    rcases Nat.eq_zero_or_pos left with none_left | some_left
    · exact Or.inl none_left
    · exact Or.inr (climbsMore.stays (climbs.ends some_left)).2
  refine ⟨left + more, ⟨climbsMore.regular, ⟨script ++ rest, ?_, ?_⟩, ?_, ?_, ?_⟩, ?_⟩
  · rw [splitMore, split, List.append_assoc]
  · have deeper := depth?_add foundMore (level + left)
    rw [Nat.zero_add] at deeper
    rw [depth?_append, found, Option.bind_some, deeper]
    congr 1
    omega
  · rw [climbsMore.bodies, climbs.bodies]
    omega
  · intro last
    obtain ⟨lastToo, none_left⟩ := climbs.stays last
    obtain ⟨lastMore, none_more⟩ := climbsMore.stays lastToo
    exact ⟨lastMore, by omega⟩
  · intro some_left
    rcases Nat.eq_zero_or_pos left with none_left | some_before
    · exact climbsMore.ends (by omega)
    · exact (climbsMore.stays (climbs.ends some_before)).1
  · intro braces some_braces
    refine (or_congr (cuts braces some_braces) (cutsMore braces some_braces)).trans ?_
    omega

/-- What stays on its level reads no declaration. -/
theorem ofLevel (level : Level f g) : Rises f 0 g fun _ => False := by
  obtain ⟨more, split, stays⟩ := level.script
  refine ⟨0, ⟨level.regular, ⟨more, split, depth?_of_not_isShift stays 0⟩, ?_,
    fun last => ⟨level.ends last, rfl⟩, nofun⟩, ?_⟩
  · rw [level.bodies]
    exact (Int.add_zero _).symm
  · intro braces some_braces
    exact iff_of_false id (Nat.ne_of_gt some_braces)

theorem before (rises : Rises f level g cut) (flat : Level g g → Level g h) :
    Rises f level h cut :=
  (rises.append fun regular => .ofLevel (flat (.refl regular))).congr
    fun _ => iff_of_eq (or_false _)

theorem after (flat : Level f f → Level f g) (rises : g.Regular → Rises g 0 h cut)
    (regular : f.Regular) : Rises f 0 h cut :=
  ((refl regular).before flat |>.append rises).congr fun _ => iff_of_eq (false_or _)

theorem indent (rises : Rises f level g cut) : Rises f (level + 1) g.indent cut := by
  obtain ⟨left, climbs, cuts⟩ := rises
  obtain ⟨more, split, found⟩ := climbs.script
  refine ⟨left, ⟨invariant_regular.perform climbs.regular rfl, ⟨more ++ [.indent], ?_, ?_⟩,
    climbs.bodies, climbs.stays, climbs.ends⟩, cuts⟩
  · simp [Formatter.indent, perform, split]
  · rw [depth?_append, found, Option.bind_some, Nat.add_right_comm]
    rfl

theorem unindent (rises : Rises f (level + 1) g cut) : Rises f level g.unindent cut := by
  obtain ⟨left, climbs, cuts⟩ := rises
  obtain ⟨more, split, found⟩ := climbs.script
  refine ⟨left, ⟨invariant_regular.perform climbs.regular rfl, ⟨more ++ [.unindent], ?_, ?_⟩,
    climbs.bodies, climbs.stays, climbs.ends⟩, cuts⟩
  · simp [Formatter.unindent, perform, split]
  · rw [depth?_append, found, Option.bind_some, Nat.add_right_comm]
    rfl

/-- A loop over parts, each of which comes back to its level. -/
theorem whileLoop {condition : Formatter Feed → Bool} {step loop : Formatter Feed → Formatter Feed}
    (consuming : Consuming remaining (whileRound condition step) loop)
    {cuts : Formatter Feed → Nat → Prop}
    (each : ∀ later, Reaches (whileRound condition step) f later → condition later = true →
      later.Regular → Rises later 0 (step later) (cuts later)) (regular : f.Regular) :
    Rises f 0 (loop f) fun braces => ∃ later, Reaches (whileRound condition step) f later ∧
      condition later = true ∧ cuts later braces := by
  have finishes := consuming.finishes f
  generalize loop f = result at finishes
  induction finishes with
  | @done f result leaves =>
    have stops : condition f = false := by
      by_contra goes
      rw [Bool.not_eq_false] at goes
      rw [whileRound, if_pos goes] at leaves
      contradiction
    rw [whileRound, if_neg (by simp [stops]), Round.done.injEq] at leaves
    subst leaves
    refine (refl regular).congr fun braces => iff_of_false id ?_
    rintro ⟨later, reaches, goes, _⟩
    rw [reaches_of_not stops reaches, stops] at goes
    contradiction
  | @more f next result goes after ih =>
    have holds : condition f = true := by
      by_contra stops
      rw [whileRound, if_neg stops] at goes
      contradiction
    have step_eq : step f = next := by
      rw [whileRound, if_pos holds] at goes
      exact Round.more.inj goes
    have first := each f (.here f) holds regular
    rw [step_eq] at first
    refine (first.append (ih fun later reaches => each later (.more goes reaches))).congr
      fun braces => ⟨?_, ?_⟩
    · rintro (cut | ⟨later, reaches, continues, cut⟩)
      · exact ⟨f, .here f, holds, cut⟩
      · exact ⟨later, .more goes reaches, continues, cut⟩
    · rintro ⟨later, reaches, continues, cut⟩
      cases reaches with
      | here => exact Or.inl cut
      | more goesToo reachesMore =>
        obtain rfl := Round.more.inj (goes.symm.trans goesToo)
        exact Or.inr ⟨later, reachesMore, continues, cut⟩

end Rises

namespace Call

/-- The call reads a declaration that the end of the source cuts off inside so many bodies. -/
def Cut (call : Call) (braces : Nat) : Prop :=
  ∃ f last, Relation.ReflTransGen Makes call (declaration f) ∧
    Reaches declarationRound (0, f) (braces, last) ∧ last.kind = .endOfFile

/-- A call that the call makes reads one. -/
def CutInside (call : Call) (braces : Nat) : Prop :=
  ∃ callee, Makes call callee ∧ callee.Cut braces

/-- The call comes back to its level, but for the bodies inside which a declaration is cut off. -/
def Rising (call : Call) : Prop :=
  call.formatter.Regular → Rises call.formatter 0 call.result call.Cut

/-- So do all calls made by the call. -/
def RisingInside (call : Call) : Prop :=
  ∀ callee, Makes call callee → callee.Rising

theorem cut_iff_cutInside {call : Call} (noDeclaration : ∀ f, call ≠ declaration f)
    (braces : Nat) : call.Cut braces ↔ call.CutInside braces := by
  constructor
  · rintro ⟨f, last, reads, ends⟩
    rcases Relation.ReflTransGen.cases_head reads with same | ⟨callee, makes, later⟩
    · exact absurd same (noDeclaration f)
    · exact ⟨callee, makes, f, last, later, ends⟩
  · rintro ⟨callee, makes, f, last, later, ends⟩
    exact ⟨f, last, .head makes later, ends⟩

/-- A call that is no declaration comes back if the declarations that it leaves are inside. -/
theorem rises_of_inside {call : Call} (noDeclaration : ∀ f, call ≠ declaration f)
    (rises : Rises call.formatter 0 call.result call.CutInside) :
    Rises call.formatter 0 call.result call.Cut :=
  rises.congr fun braces => (cut_iff_cutInside noDeclaration braces).symm

variable {f : Formatter Feed} {braces : Nat}

/-! ## Expressions and declarations -/

/-- Expressions read no declarations. -/
theorem not_cut_expression {terminator : Category} : ¬ (expression terminator f).Cut braces := by
  rintro ⟨g, _, reads, _⟩
  have inner {call : Call} (reads : Relation.ReflTransGen Makes (expression terminator f) call) :
      ∃ closing later, call = expression closing later := by
    induction reads with
    | refl => exact ⟨terminator, f, rfl⟩
    | tail _ makes ih =>
      obtain ⟨closing, later, rfl⟩ := ih
      cases makes
      exact ⟨_, _, rfl⟩
  obtain ⟨_, _, same⟩ := inner reads
  contradiction

theorem rising_expression {terminator : Category} : (expression terminator f).Rising :=
  fun regular => (Rises.ofLevel ((Level.refl regular).expression terminator)).congr
    fun _ => iff_of_false id not_cut_expression

theorem cut_declaration_iff :
    (declaration f).Cut braces ↔
      ∃ last, Reaches declarationRound (0, f) (braces, last) ∧ last.kind = .endOfFile := by
  constructor
  · rintro ⟨g, last, reads, ends⟩
    rcases Relation.ReflTransGen.cases_head reads with same | ⟨callee, makes, later⟩
    · obtain rfl := Call.declaration.inj same
      exact ⟨last, ends⟩
    · cases makes
      exact absurd ⟨g, last, later, ends⟩ not_cut_expression
  · rintro ⟨last, ends⟩
    exact ⟨f, last, .refl, ends⟩

theorem rising_declaration : (declaration f).Rising := by
  intro regular
  obtain ⟨⟨left, last⟩, reaches, leaves⟩ :=
    (consuming_declarationLoop.finishes (0, f)).exists_reaches
  obtain ⟨lastRegular, script, bodies⟩ := opens_reaches reaches regular
  obtain ⟨level, ends⟩ := level_declarationRound leaves lastRegular
  have final : Level last f.declaration := (level.expect .semicolon).endLine
  have read : Climbs f 0 last left := by
    refine ⟨lastRegular, ?_, ?_, ?_, ?_⟩
    · simpa using script
    · simpa using bodies
    · intro atEnd
      have stays : declarationRound (0, f) = .done f := if_pos (by simp [atEnd])
      obtain ⟨rfl, rfl⟩ := Prod.mk.inj (reaches.of_done stays)
      exact ⟨atEnd, rfl⟩
    · intro some_left
      exact ends.resolve_right (Nat.ne_of_gt some_left)
  refine Rises.before ⟨left, read, fun braces some_braces => ?_⟩ fun _ => final
  rw [cut_declaration_iff]
  constructor
  · rintro ⟨other, reachesToo, atEnd⟩
    have leavesToo : declarationRound (braces, other) = .done other := if_pos (by simp [atEnd])
    exact congrArg Prod.fst (reachesToo.unique_of_done reaches leavesToo leaves)
  · rintro rfl
    exact ⟨last, reaches, read.ends some_braces⟩

/-! ## Statements -/

theorem rising_substatement (each : (substatement f).RisingInside) : (substatement f).Rising := by
  intro regular
  by_cases begins : f.kind = .leftBrace
  · have result : f.substatement = f.compoundStatement := if_pos begins
    have inside : Rises f 0 f.substatement (block f).Cut := by
      rw [result]
      exact each _ (.blockOfSubstatement begins) regular
    refine rises_of_inside (by simp) (Rises.congr inside fun braces => ?_)
    simp [CutInside, makes_substatement_iff, begins]
  · have result : f.substatement = f.indent.statement.unindent := if_neg begins
    have inside : Rises f 0 f.substatement (statement f.indent).Cut := by
      rw [result]
      have body := (Rises.refl regular).indent.append (each _ (.statementOfSubstatement begins))
      exact body.unindent.congr fun _ => iff_of_eq (false_or _)
    refine rises_of_inside (by simp) (Rises.congr inside fun braces => ?_)
    simp [CutInside, makes_substatement_iff, begins]

/-- A keyword, a condition and a statement. -/
theorem rises_controlled (body : (substatement f.advance.parenthesized.endLine).Rising)
    (regular : f.Regular) :
    Rises f 0 (controlledVia Formatter.statement f)
      (substatement f.advance.parenthesized.endLine).Cut :=
  Rises.after (fun level => level.advance.parenthesized.endLine) body regular

theorem rising_loop (each : (loop f).RisingInside) : (loop f).Rising := by
  intro regular
  have whole := rises_controlled (each _ .bodyOfLoop) regular
  refine rises_of_inside (by simp) (Rises.congr whole fun braces => ?_)
  simp [CutInside, makes_loop_iff, or_and_right, exists_or, and_assoc, not_cut_expression]

theorem rising_doLoop (each : (doLoop f).RisingInside) : (doLoop f).Rising := by
  intro regular
  have body : Rises f 0 f.advance.endLine.substatement (substatement f.advance.endLine).Cut :=
    Rises.after (fun level => level.advance.endLine) (each _ .bodyOfDoLoop) regular
  have whole := body.before fun level =>
    ((level.expect .kwWhile).parenthesized).endStatement
  refine rises_of_inside (by simp) (Rises.congr whole fun braces => ?_)
  simp [CutInside, makes_doLoop_iff, or_and_right, exists_or, and_assoc, not_cut_expression]

theorem rising_conditional (each : (conditional f).RisingInside) : (conditional f).Rising := by
  intro regular
  have first := rises_controlled (each _ .thenOfConditional) regular
  apply rises_of_inside (by simp)
  change Rises f 0 f.ifStatement _
  rw [ifStatement_eq]
  dsimp only
  split
  · rename_i goes
    split
    · rename_i again
      have rest := (first.before fun level => level.advance).append
        (each _ (.againOfConditional goes again))
      refine rest.congr fun braces => ?_
      simp [CutInside, makes_conditional_iff, goes, again, or_and_right, exists_or, and_assoc,
        not_cut_expression]
    · rename_i other
      have rest := (first.before fun level => level.advance.endLine).append
        (each _ (.elseOfConditional goes other))
      refine rest.congr fun braces => ?_
      simp [CutInside, makes_conditional_iff, goes, other, or_and_right, exists_or, and_assoc,
        not_cut_expression]
  · rename_i noElse
    refine first.congr fun braces => ?_
    simp [CutInside, makes_conditional_iff, noElse, or_and_right, exists_or, and_assoc,
      not_cut_expression]

/-- A section of a `switch`: its label and its statements, one level deeper. -/
theorem rises_section
    (statements : ∀ later, Reaches sectionRound (sectionBody f) later →
      (!later.atCase && !later.atBlockEnd) = true → (statement later).Rising)
    (regular : f.Regular) :
    Rises f 0 (switchSectionVia Formatter.statement f) fun braces =>
      ∃ later, Reaches sectionRound (sectionBody f) later ∧
        (!later.atCase && !later.atBlockEnd) = true ∧ (statement later).Cut braces := by
  have head : Rises f 1 (sectionBody f) fun _ => False := by
    unfold sectionBody
    apply Rises.indent
    split
    · exact .ofLevel (Level.refl regular).caseLabel
    · exact .refl regular
  have body := head.append (Rises.whileLoop consuming_section statements)
  exact (body.before fun level => level.endLine).unindent.congr fun _ => iff_of_eq (false_or _)

theorem rising_choice (each : (choice f).RisingInside) : (choice f).Rising := by
  intro regular
  have head : Rises f 1 (insideChoice f) fun _ => False :=
    (Rises.ofLevel
      ((((Level.refl regular).advance.parenthesized.endLine).expect .leftBrace).endLine)).indent
  have sections := head.append (Rises.whileLoop consuming_sections fun place reaches goes =>
    rises_section (f := place) fun later inside continues =>
      each _ (.statementOfChoice reaches (by simpa using goes) inside continues))
  have whole := sections.unindent.before fun level => (level.expect .rightBrace).endLine
  refine rises_of_inside (by simp) (Rises.congr whole fun braces => ?_)
  constructor
  · rintro (none_cut | ⟨place, reaches, goes, later, inside, continues, cut⟩)
    · contradiction
    · exact ⟨_, .statementOfChoice reaches (by simpa using goes) inside continues, cut⟩
  · rintro ⟨callee, makes, cut⟩
    cases makes with
    | conditionOfChoice => exact absurd cut not_cut_expression
    | labelOfChoice => exact absurd cut not_cut_expression
    | @statementOfChoice _ place later reaches goes inside continues =>
      exact Or.inr ⟨place, reaches, by simpa using goes, later, inside, continues, cut⟩

/-- The declarations of a block, and the empty line behind them. -/
theorem rises_blockDeclarations
    (declarations : ∀ later, Reaches declarationsRound f later →
      later.kind.startsDeclaration = true → (declaration later).Rising) (regular : f.Regular) :
    Rises f 0 f.blockDeclarations fun braces =>
      ∃ later, Reaches declarationsRound f later ∧ later.kind.startsDeclaration = true ∧
        (declaration later).Cut braces := by
  have loop := Rises.whileLoop consuming_declarations declarations regular
  unfold blockDeclarations
  split
  · exact loop.before fun level => level.perform rfl
  · rename_i noDeclaration
    rwa [loop_of_not consuming_declarations (by simpa using noDeclaration)] at loop

theorem rising_block (each : (block f).RisingInside) : (block f).Rising := by
  intro regular
  have head : Rises f 1 (insideBlock f) fun _ => False :=
    (Rises.ofLevel ((Level.refl regular).expect .leftBrace).endLine).indent
  have declarations := head.append (rises_blockDeclarations fun later reaches starts =>
    each _ (.declarationOfBlock reaches starts))
  have statements := declarations.append (Rises.whileLoop consuming_statements
    fun later reaches goes => each _ (.statementOfBlock reaches (by simpa using goes)))
  have whole := (statements.before fun level => level.endLine).unindent.before fun level =>
    (level.expect .rightBrace).endLine
  refine rises_of_inside (by simp) (Rises.congr whole fun braces => ?_)
  constructor
  · rintro ((none_cut | ⟨later, reaches, starts, cut⟩) | ⟨later, reaches, goes, cut⟩)
    · contradiction
    · exact ⟨_, .declarationOfBlock reaches starts, cut⟩
    · exact ⟨_, .statementOfBlock reaches (by simpa using goes), cut⟩
  · rintro ⟨callee, makes, cut⟩
    cases makes with
    | @declarationOfBlock _ later reaches starts =>
      exact Or.inl (Or.inr ⟨later, reaches, starts, cut⟩)
    | @statementOfBlock _ later reaches goes =>
      exact Or.inr ⟨later, reaches, by simpa using goes, cut⟩

/-- A statement without a label. -/
theorem rises_unlabelled {start : Formatter Feed}
    (each : ∀ callee, unlabelled? start = some callee → callee.Rising) (regular : start.Regular) :
    Rises start 0 (unlabelledVia Formatter.statement start) fun braces =>
      ∃ callee, unlabelled? start = some callee ∧ callee.Cut braces := by
  have view := unlabelled start
  generalize unlabelled? start = callee? at each view ⊢
  generalize unlabelledVia Formatter.statement start = after at view ⊢
  have level := Level.refl regular
  cases view with
  | block | choice | conditional | loop | doLoop => exact (each _ rfl regular).congr (by simp)
  | expression =>
    exact (Rises.ofLevel level.expressionStatement).congr (by simp [not_cut_expression])
  | value => exact (Rises.ofLevel level.returnStatement).congr (by simp [not_cut_expression])
  | bareReturn => exact (Rises.ofLevel level.returnStatement).congr (by simp)
  | jump => exact (Rises.ofLevel level.jumpStatement).congr (by simp)
  | goTo => exact (Rises.ofLevel level.gotoStatement).congr (by simp)

theorem rising_statement (each : (statement f).RisingInside) : (statement f).Rising := by
  intro regular
  have inside {start : Formatter Feed} (label : afterLabel? f = some start)
      (level : Level f start) :
      Rises f 0 (unlabelledVia Formatter.statement start) (statement f).CutInside := by
    have rises := Rises.after (fun _ => level)
      (rises_unlabelled fun callee begins => each callee (.ofStatement label begins)) regular
    exact rises.congr (by simp [CutInside, makes_statement_iff, label])
  apply rises_of_inside (by simp)
  change Rises f 0 f.statement _
  have level : Level f f := Level.refl regular
  have view := labelled f
  generalize label : afterLabel? f = start? at view
  generalize f.statement = after at view ⊢
  cases view with
  | bare => exact inside label level
  | name name => exact inside label (level.lookAgain name)
  | label => exact inside label (level.advance.adjust .left).advance
  | closed =>
    have labelled := ((level.advance.adjust .left).advance).endLine
    exact (Rises.ofLevel labelled).congr (by simp [CutInside, makes_statement_iff, label])

/-- Every call comes back to its level, but for the bodies inside which a declaration is cut off. -/
theorem rising (call : Call) : call.Rising := by
  induction call using wellFounded_makes.induction with
  | _ call each =>
    cases call with
    | statement f => exact rising_statement each
    | substatement f => exact rising_substatement each
    | block f => exact rising_block each
    | conditional f => exact rising_conditional each
    | loop f => exact rising_loop each
    | doLoop f => exact rising_doLoop each
    | choice f => exact rising_choice each
    | declaration f => exact rising_declaration
    | expression terminator f => exact rising_expression

end Call

end CListing.Formatter
