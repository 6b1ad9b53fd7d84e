import CListing.Proofs.Formatter.Balance
import CListing.Proofs.Formatter.Termination

/-!
# What functions and files leave of their levels

The body of a function comes back to the level of its header like a statement. At file level the
bodies of declarations are counted, and the depth changes with the count, which may fall below zero.
So at the end of a file the depth is the number of bodies that were begun and not ended, less those
that were ended and not begun.
-/

namespace CListing.Formatter

open Round Call

/-! ## Functions -/

/-- Where the declarations of the parameters of a function begin. -/
def parametersStart (f : Formatter Feed) : Formatter Feed :=
  ({ f with functions := f.functions + 1 }.perform (.endLine true)).indent

/-- Where the block of a function begins. -/
def parametersEnd (f : Formatter Feed) : Formatter Feed :=
  f.parametersStart.declarations.unindent

/-- The reading of the body of a function makes the call itself. -/
inductive BodyMakes (f : Formatter Feed) : Call → Prop
  | parameters {later : Formatter Feed}
      (reaches : Reaches declarationsRound f.parametersStart later)
      (starts : later.kind.startsDeclaration = true) : BodyMakes f (.declaration later)
  | block : BodyMakes f (.block f.parametersEnd)

/-- The reading of the body comes to a declaration that the end of the source cuts off inside so
many bodies. -/
def BodyCut (f : Formatter Feed) (braces : Nat) : Prop :=
  ∃ callee, BodyMakes f callee ∧ callee.Cut braces

theorem rises_functionBody {f : Formatter Feed} (regular : f.Regular) :
    Rises f 0 f.functionBody f.BodyCut := by
  have counted : Level f { f with functions := f.functions + 1 } :=
    (Level.refl regular).focus (invariant_regular.countFunction regular) rfl rfl rfl
  have start : Rises f 1 f.parametersStart fun _ => False :=
    (Rises.ofLevel (counted.perform rfl)).indent
  have parameters := (start.append (Rises.whileLoop consuming_declarations
    fun later _ _ => rising (.declaration later))).unindent
  have body := (parameters.append (rising (.block f.parametersEnd))).before
    fun level => Level.perform level.endLine (show Command.isShift .endPage = false from rfl)
  refine Rises.congr body fun braces => ⟨?_, ?_⟩
  · rintro ((none_cut | ⟨later, reaches, starts, cut⟩) | cut)
    · contradiction
    · exact ⟨_, .parameters reaches starts, cut⟩
    · exact ⟨_, .block, cut⟩
  · rintro ⟨callee, makes, cut⟩
    cases makes with
    | @parameters later reaches starts => exact Or.inl (Or.inr ⟨later, reaches, starts, cut⟩)
    | block => exact Or.inr cut

/-! ## Declarations at file level -/

/-- The depth and the count of open bodies change by the same number, from so many open bodies to
so many others. -/
structure Weighs (opened : Int) (f : Formatter Feed) (left : Int) (g : Formatter Feed) : Prop where
  regular : g.Regular
  script : ∃ more, g.script.toList = f.script.toList ++ more ∧ opened + shifts more = left
  bodies : g.bodies + opened = f.bodies + left

namespace Weighs

variable {f g h : Formatter Feed} {opened between left : Int}

theorem trans (first : Weighs opened f between g) (second : Weighs between g left h) :
    Weighs opened f left h := by
  obtain ⟨more, split, found⟩ := first.script
  obtain ⟨others, splitMore, foundMore⟩ := second.script
  refine ⟨second.regular, ⟨more ++ others, ?_, ?_⟩, ?_⟩
  · rw [splitMore, split, List.append_assoc]
  · rw [shifts_append]
    omega
  · have bodies := first.bodies
    have bodiesMore := second.bodies
    omega

theorem ofOpens {before behind : Nat} (opens : Opens before f behind g) (opened : Int) :
    Weighs opened f (opened + behind - before) g := by
  obtain ⟨more, split, found⟩ := opens.script
  have depth := shifts_of_depth? found
  have bodies := opens.bodies
  exact ⟨opens.regular, ⟨more, split, by omega⟩, by omega⟩

theorem ofLevel (level : Level f g) (opened : Int) : Weighs opened f opened g := by
  have weighs := ofOpens (.ofLevel level 0) opened
  rwa [Nat.cast_zero, Int.add_zero, Int.sub_zero] at weighs

theorem openBrace (regular : f.Regular) (opened : Int) :
    Weighs opened f (opened + 1) f.openBrace := by
  have weighs := ofOpens (.openBrace regular 0) opened
  rwa [Nat.cast_zero, Int.sub_zero] at weighs

theorem closeBrace (regular : f.Regular) (opened : Int) :
    Weighs opened f (opened - 1) f.closeBrace := by
  have weighs := ofOpens (.closeBrace regular 0) opened
  rwa [Nat.cast_zero, Int.add_zero] at weighs

end Weighs

/-- A round of the loop of a declaration at file level keeps account of the open bodies. -/
theorem weighs_externalRound {state next : Int × Formatter Feed}
    (goes : externalRound state = .more next) (regular : state.2.Regular) :
    Weighs state.1 state.2 next.1 next.2 := by
  have marked := (Level.refl regular).markDeclaration
  have start := Weighs.ofLevel marked state.1
  have turn := externalTurn state
  rw [goes] at turn
  cases turn with
  | leftBrace => exact start.trans (.openBrace marked.regular _)
  | rightBrace => exact start.trans (.closeBrace marked.regular _)
  | assignment => exact .ofLevel (marked.expression .semicolon) _
  | semicolon => exact .ofLevel marked.advance.endLine _
  | rightParen | other => exact .ofLevel marked.advance _

theorem weighs_reaches {state later : Int × Formatter Feed}
    (reaches : Reaches externalRound state later) (regular : state.2.Regular) :
    Weighs state.1 state.2 later.1 later.2 := by
  induction reaches with
  | here state => exact .ofLevel (.refl regular) state.1
  | more goes _ ih =>
    have first := weighs_externalRound goes regular
    exact first.trans (ih first.regular)

/-- A header ends outside of all bodies; a declaration does not end inside of one before the end of
the source. -/
theorem level_externalRound {state : Int × Formatter Feed} {found : FileLevel}
    {result : Formatter Feed} (leaves : externalRound state = .done (found, result))
    (regular : state.2.Regular) :
    Level state.2 result ∧ (found = .header → state.1 = 0) ∧
      (0 < state.1 → state.2.kind = .endOfFile) := by
  have turn := externalTurn state
  rw [leaves] at turn
  cases turn with
  | stop stops =>
    refine ⟨.refl regular, fun header => FileLevel.noConfusion header,
      fun inside => stops.resolve_left fun outside => ?_⟩
    exact absurd outside.1 (Int.not_le.mpr inside)
  | header =>
    exact ⟨(Level.refl regular).markDeclaration.advance, fun _ => rfl,
      fun inside => absurd inside (Int.lt_irrefl 0)⟩

/-- The reading of a declaration at file level comes to the end of the source inside so many
bodies. -/
def ExternalCut (f : Formatter Feed) (braces : Nat) : Prop :=
  ∃ last, Reaches externalRound (0, f) ((braces : Int), last) ∧ last.kind = .endOfFile

theorem weighs_externalDeclaration {f : Formatter Feed} (regular : f.Regular) :
    ∃ left, Weighs 0 f left f.externalDeclaration.2 ∧
      (f.externalDeclaration.1 = .header → left = 0) ∧
      (0 < left → ∃ braces, 0 < braces ∧ f.ExternalCut braces) := by
  obtain ⟨⟨left, last⟩, reaches, leaves⟩ := (consuming_externalLoop.finishes (0, f)).exists_reaches
  have read := weighs_reaches reaches regular
  have cut (inside : 0 < left) (ends : last.kind = .endOfFile) :
      ∃ braces, 0 < braces ∧ f.ExternalCut braces := by
    obtain ⟨braces, rfl⟩ := Int.eq_ofNat_of_zero_le (Int.le_of_lt inside)
    exact ⟨braces, Int.natCast_pos.mp inside, last, reaches, ends⟩
  rw [externalLoop] at leaves
  unfold externalDeclaration
  split
  · rename_i result found
    rw [found] at leaves
    obtain ⟨level, header, ends⟩ := level_externalRound leaves read.regular
    exact ⟨left, read.trans (.ofLevel level left), fun _ => header rfl,
      fun inside => cut inside (ends inside)⟩
  · rename_i result found
    rw [found] at leaves
    obtain ⟨level, _, ends⟩ := level_externalRound leaves read.regular
    exact ⟨left, read.trans (.ofLevel (level.expect .semicolon).endLine left),
      fun header => FileLevel.noConfusion header, fun inside => cut inside (ends inside)⟩

/-! ## Files -/

/-- The reading of an item of a file comes to the end of the source inside so many bodies of a
declaration. -/
def ItemCut (f : Formatter Feed) (braces : Nat) : Prop :=
  f.ExternalCut braces ∨ ∃ read, f.externalDeclaration = (.header, read) ∧ read.BodyCut braces

/-- From one state to the other the depth changes with the count of open bodies, and it only grows
where the source ends inside the bodies of a declaration. -/
structure Accounts (f g : Formatter Feed) (cut : Nat → Prop) : Prop where
  regular : g.Regular
  script : ∃ more, g.script.toList = f.script.toList ++ more ∧ g.bodies = f.bodies + shifts more
  grows : f.bodies < g.bodies → ∃ braces, 0 < braces ∧ cut braces

theorem accounts_fileItem {f : Formatter Feed} (regular : f.Regular) :
    Accounts f f.fileItem f.ItemCut := by
  obtain ⟨left, weighs, header, grows⟩ := weighs_externalDeclaration regular
  unfold fileItem
  split
  · rename_i read found
    rw [found] at weighs header
    obtain rfl := header rfl
    obtain ⟨readRegular, ⟨more, split, depth⟩, bodies⟩ := weighs
    obtain ⟨openLeft, climbs, cuts⟩ := rises_functionBody readRegular
    obtain ⟨others, splitMore, level⟩ := climbs.script
    have levels := shifts_of_depth? level
    have bodiesMore := climbs.bodies
    dsimp only at split bodies splitMore bodiesMore
    refine ⟨climbs.regular, ⟨more ++ others, ?_, ?_⟩, fun grown => ?_⟩
    · rw [splitMore, split, List.append_assoc]
    · rw [shifts_append]
      omega
    · have inside : 0 < openLeft := by omega
      exact ⟨openLeft, inside, Or.inr ⟨read, found, (cuts openLeft inside).mpr rfl⟩⟩
  · rename_i read found
    rw [found] at weighs
    obtain ⟨readRegular, ⟨more, split, depth⟩, bodies⟩ := weighs
    dsimp only at split bodies
    refine ⟨readRegular, ⟨more, split, by omega⟩, fun grown => ?_⟩
    obtain ⟨braces, inside, cut⟩ := grows (by omega)
    exact ⟨braces, inside, Or.inl cut⟩

/-- Some item of the file is cut off inside so many bodies. -/
def FileCut (f : Formatter Feed) (braces : Nat) : Prop :=
  ∃ item, Reaches fileRound f item ∧ item.kind ≠ .endOfFile ∧ item.ItemCut braces

theorem accounts_fileLoop {f : Formatter Feed} (regular : f.Regular) :
    Accounts f (fileLoop f) f.FileCut := by
  have finishes := consuming_fileLoop.finishes f
  generalize fileLoop f = result at finishes
  induction finishes with
  | @done f result leaves =>
    simp only [fileRound, whileRound] at leaves
    split at leaves
    · contradiction
    · obtain rfl := Round.done.inj leaves
      exact ⟨regular, ⟨[], by simp, by simp [shifts]⟩, fun grown => absurd grown (lt_irrefl _)⟩
  | @more f next result goes _ ih =>
    have continues : f.kind ≠ .endOfFile ∧ f.fileItem = next := by
      simp only [fileRound, whileRound] at goes
      split at goes
      · rename_i before
        exact ⟨by simpa using before, Round.more.inj goes⟩
      · contradiction
    obtain ⟨before, rfl⟩ := continues
    have first := accounts_fileItem regular
    have rest := ih first.regular
    obtain ⟨more, split, bodies⟩ := first.script
    obtain ⟨others, splitMore, bodiesMore⟩ := rest.script
    refine ⟨rest.regular, ⟨more ++ others, ?_, ?_⟩, fun grown => ?_⟩
    · rw [splitMore, split, List.append_assoc]
    · rw [shifts_append]
      omega
    · by_cases here : f.bodies < f.fileItem.bodies
      · obtain ⟨braces, inside, cut⟩ := first.grows here
        exact ⟨braces, inside, f, .here f, before, cut⟩
      · obtain ⟨braces, inside, item, reaches, beforeEnd, cut⟩ := rest.grows (by omega)
        exact ⟨braces, inside, item, .more goes reaches, beforeEnd, cut⟩

/-- At the end of a file the depth is the number of open bodies. -/
theorem accounts_file {f : Formatter Feed} (regular : f.Regular) :
    Accounts f f.file f.advance.FileCut := by
  have first := (Level.refl regular).advance
  have loop := accounts_fileLoop first.regular
  have final := (Level.refl loop.regular).endLine
  obtain ⟨early, splitEarly, bodiesEarly⟩ := (Weighs.ofLevel first 0).script
  obtain ⟨more, split, bodies⟩ := loop.script
  obtain ⟨late, splitLate, bodiesLate⟩ := (Weighs.ofLevel final 0).script
  have same : f.advance.bodies = f.bodies := first.bodies
  have sameLate : f.file.bodies = (fileLoop f.advance).bodies := final.bodies
  refine ⟨final.regular, ⟨early ++ more ++ late, ?_, ?_⟩, fun grown => ?_⟩
  · rw [file_eq, splitLate, split, splitEarly, List.append_assoc, List.append_assoc,
      List.append_assoc]
  · rw [shifts_append, shifts_append]
    omega
  · exact loop.grows (by omega)

end CListing.Formatter
