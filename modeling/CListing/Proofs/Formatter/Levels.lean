import CListing.Proofs.Formatter.Notes
import CListing.Proofs.Formatter.Visits
import CListing.Proofs.Listing.Depth
import Mathlib.Logic.Relation

/-!
# Levels of the walk

The parts of the walk and the levels they add: tokens and expressions stay on their level, the body
of a declaration is one level deeper, and a declaration that is cut off by the end of the source
leaves a level for each body that was not ended. The end is never left again, so no second
declaration is cut off behind the first one.
-/

namespace CListing

namespace Round

variable {α β : Type} {round : α → Round α β}

/-- A loop comes to the state in which it is left. -/
theorem Finishes.exists_reaches {state : α} {result : β} (finishes : Finishes round state result) :
    ∃ last, Reaches round state last ∧ round last = .done result := by
  induction finishes with
  | @done state result leaves => exact ⟨state, .here state, leaves⟩
  | more goes _ ih =>
    obtain ⟨last, reaches, leaves⟩ := ih
    exact ⟨last, .more goes reaches, leaves⟩

/-- A loop is left in one state only. -/
theorem Reaches.unique_of_done {state last other : α} {result otherResult : β}
    (reaches : Reaches round state last) (again : Reaches round state other)
    (leaves : round last = .done result) (leavesToo : round other = .done otherResult) :
    last = other := by
  induction reaches with
  | here state => exact (again.of_done leaves).symm
  | more goes later ih =>
    cases again with
    | here =>
      rw [goes] at leavesToo
      contradiction
    | more goesToo laterToo =>
      obtain rfl := Round.more.inj (goes.symm.trans goesToo)
      exact ih laterToo leaves

end Round

namespace Formatter

open Round

/-- What the feed brings along leaves the depth alone, and behind the end there is only the end. -/
structure Regular (f : Formatter Feed) : Prop where
  source : f.cursor.source.AllCommands (!·.isShift)
  endsLast : f.cursor.source.EndsLast
  ends : f.kind = .endOfFile → f.cursor.source.ahead = [] ∧
    ∀ token ∈ f.cursor.lookahead?, token.category = .endOfFile
  put : ∀ token ∈ f.cursor.lookahead?, token.category = .endOfFile → f.cursor.source.ahead = []

theorem Regular.advance {f : Formatter Feed} (regular : f.Regular) : f.advance.Regular := by
  obtain ⟨source, endsLast, ends, put⟩ := regular
  cases slot : f.cursor.lookahead? with
  | some token =>
    rw [advance_of_put slot]
    exact ⟨source, endsLast, fun last => ⟨put token slot last, by simp⟩, by simp⟩
  | none =>
    rw [advance_of_free slot]
    refine ⟨(source.fetch rfl).2, (Feed.endsLast_fetch endsLast).1, fun last => ⟨?_, by simp⟩,
      by simp⟩
    rcases f.cursor.source.cases_ahead with ⟨empty, _⟩ | ⟨first, rest, split⟩
    · rw [Feed.fetch_of_ahead_eq_nil empty]
      exact empty
    · rw [split] at endsLast
      rw [kind, split] at last
      exact absurd last (endsLast first List.mem_cons_self)

theorem invariant_regular : Invariant Regular where
  perform regular _ := ⟨regular.source, regular.endsLast, regular.ends, regular.put⟩
  reportMissing _ regular := ⟨regular.source, regular.endsLast, regular.ends, regular.put⟩
  markDeclaration regular := ⟨regular.source, regular.endsLast, regular.ends, regular.put⟩
  markExpression _ regular := ⟨regular.source, regular.endsLast, regular.ends, regular.put⟩
  joinLeft regular _ := ⟨regular.source, regular.endsLast, regular.ends, regular.put⟩
  advance regular := regular.advance
  lookAgain {f} regular name := by
    have next := regular.advance
    rw [putBack_advance]
    refine ⟨next.source, next.endsLast, ?_, ?_⟩
    · intro last
      rw [show f.kind = .endOfFile from last] at name
      contradiction
    · intro token again last
      obtain rfl := Option.some.inj again
      exact (next.ends last).1
  countFunction regular := ⟨regular.source, regular.endsLast, regular.ends, regular.put⟩
  countOpened regular := ⟨regular.source, regular.endsLast, regular.ends, regular.put⟩
  countClosed regular := ⟨regular.source, regular.endsLast, regular.ends, regular.put⟩

/-- The bodies that were begun and not ended, or ended and not begun. -/
def bodies (f : Formatter Feed) : Int :=
  f.bodiesOpened - f.bodiesClosed

/-! ## Staying on a level -/

/-- From one state to the other nothing changes the depth, and no body is begun or ended. -/
structure Level (f g : Formatter Feed) : Prop where
  regular : g.Regular
  script : ∃ more, g.script.toList = f.script.toList ++ more ∧
    ∀ command ∈ more, command.isShift = false
  bodies : g.bodies = f.bodies
  ends : f.kind = .endOfFile → g.kind = .endOfFile

namespace Level

variable {f g h : Formatter Feed}

theorem refl (regular : f.Regular) : Level f f :=
  ⟨regular, ⟨[], by simp, by simp⟩, rfl, id⟩

theorem trans (first : Level f g) (second : Level g h) : Level f h := by
  obtain ⟨more, split, stays⟩ := first.script
  obtain ⟨others, splitMore, staysMore⟩ := second.script
  refine ⟨second.regular, ⟨more ++ others, ?_, ?_⟩, second.bodies.trans first.bodies,
    fun last => second.ends (first.ends last)⟩
  · rw [splitMore, split, List.append_assoc]
  · intro command member
    rcases List.mem_append.mp member with early | late
    · exact stays command early
    · exact staysMore command late

/-- A command that is no shift. -/
theorem perform (level : Level f g) {command : Command} (stays : command.isShift = false) :
    Level f (g.perform command) := by
  refine level.trans ⟨?_, ⟨[command], by simp [Formatter.perform], by simpa using stays⟩, rfl, id⟩
  obtain ⟨source, endsLast, ends, put⟩ := level.regular
  exact ⟨source, endsLast, ends, put⟩

theorem endLine (level : Level f g) : Level f g.endLine :=
  level.perform rfl

/-- A step that concerns the token that is looked at only. -/
theorem focus (level : Level f g) (next : h.Regular) (script : h.script = g.script)
    (bodies : h.bodies = g.bodies) (kind : h.kind = g.kind) : Level f h := by
  refine level.trans ⟨next, ⟨[], by simp [script], by simp⟩, bodies, fun last => ?_⟩
  rw [kind, last]

theorem markDeclaration (level : Level f g) : Level f g.markDeclaration :=
  level.focus (invariant_regular.markDeclaration level.regular) rfl rfl rfl

theorem markExpression (level : Level f g) (previous : Category) :
    Level f (g.markExpression previous) :=
  level.focus (invariant_regular.markExpression previous level.regular) rfl rfl rfl

theorem adjust (level : Level f g) (spacing : Spacing) : Level f (g.adjust spacing) := by
  obtain ⟨source, endsLast, ends, put⟩ := level.regular
  exact level.focus ⟨source, endsLast, ends, put⟩ rfl rfl rfl

theorem markCall (level : Level f g) (previous : Category) : Level f (g.markCall previous) := by
  unfold Formatter.markCall
  split
  · exact level.adjust .left
  · exact level

theorem reportMissing (level : Level f g) (required : Category) :
    Level f (g.reportMissing required) := by
  refine level.trans ⟨invariant_regular.reportMissing required level.regular,
    ⟨[.report ("MISSING " ++ required.name).toList], ?_, ?_⟩, rfl, id⟩
  · simp [Formatter.reportMissing]
  · simp [Command.isShift]

theorem advance (level : Level f g) : Level f g.advance := by
  refine level.trans ?_
  obtain ⟨source, endsLast, ends, put⟩ := level.regular
  refine ⟨level.regular.advance, ?_, ?_, ?_⟩
  · cases slot : g.cursor.lookahead? with
    | some token =>
      rw [advance_of_put slot]
      exact ⟨[], by simp, by simp⟩
    | none =>
      rw [advance_of_free slot]
      refine ⟨_, Array.toList_appendList, ?_⟩
      intro command member
      rcases List.mem_append.mp member with released | fetched
      · unfold Cursor.release at released
        split at released
        · contradiction
        · rw [List.mem_singleton.mp released]
          rfl
      · simpa using (source.fetch rfl).1 command fetched
  · cases slot : g.cursor.lookahead? with
    | some token => rw [advance_of_put slot]; rfl
    | none => rw [advance_of_free slot]; rfl
  · intro last
    obtain ⟨empty, again⟩ := ends last
    cases slot : g.cursor.lookahead? with
    | some token =>
      rw [advance_of_put slot]
      exact again token slot
    | none =>
      rw [advance_of_free slot, Feed.fetch_of_ahead_eq_nil empty]
      rfl

theorem expect (level : Level f g) (required : Category) : Level f (g.expect required) := by
  unfold Formatter.expect
  split
  · exact level.advance
  · exact level.reportMissing required

/-- A name that turns out to be no label. -/
theorem lookAgain (level : Level f g) (name : g.kind.isName = true) :
    Level f (g.advance.putBack.lookAt g.token) := by
  have next := level.advance
  have regular := invariant_regular.lookAgain level.regular name
  rw [putBack_advance] at regular ⊢
  refine ⟨regular, next.script, next.bodies, fun last => ?_⟩
  rw [level.ends last] at name
  contradiction

theorem expressionFrom (level : Level f g) (terminator previous : Category)
    (braces budget : Nat) :
    Level f (Formatter.expressionFrom terminator previous braces budget g) := by
  induction budget generalizing terminator previous braces g with
  | zero =>
    obtain ⟨source, endsLast, ends, put⟩ := level.regular
    exact level.focus ⟨source, endsLast, ends, put⟩ rfl rfl rfl
  | succ budget ih =>
    have marked := level.markExpression previous
    simp only [Formatter.expressionFrom]
    split
    · exact level
    · split
      · have inner := ih (marked.markCall previous).advance .rightParen .foreign 0
        split
        · exact ih inner.advance _ _ _
        · exact inner.reportMissing .rightParen
      · exact ih marked.advance _ _ _
      · exact marked
      · exact ih marked.advance _ _ _
      · exact ih marked.advance _ _ _

theorem expression (level : Level f g) (terminator : Category) :
    Level f (g.expression terminator) :=
  level.expressionFrom terminator .foreign 0 g.budget

theorem parenthesized (level : Level f g) : Level f g.parenthesized := by
  unfold Formatter.parenthesized
  split
  · exact (level.advance.expression .rightParen).expect .rightParen
  · exact level.reportMissing .leftParen

theorem endStatement (level : Level f g) : Level f g.endStatement :=
  (level.expect .semicolon).endLine

theorem expressionStatement (level : Level f g) : Level f g.expressionStatement :=
  (level.expression .semicolon).endStatement

theorem jumpStatement (level : Level f g) : Level f g.jumpStatement :=
  level.advance.endStatement

theorem returnStatement (level : Level f g) : Level f g.returnStatement := by
  unfold Formatter.returnStatement
  dsimp only
  split
  · exact level.advance.endStatement
  · exact (level.advance.expression .semicolon).endStatement

theorem gotoStatement (level : Level f g) : Level f g.gotoStatement := by
  unfold Formatter.gotoStatement
  dsimp only
  split
  · exact level.advance.advance.endStatement
  · exact (level.advance.expect .identifier).endStatement

theorem caseLabel (level : Level f g) : Level f g.caseLabel :=
  (((level.expression .colon).adjust .left).expect .colon).endLine

end Level

/-! ## Bodies of declarations -/

/-- From so many open bodies to so many others: the depth and the count of the bodies change by the
same number, and the depth is never less than it is outside of the bodies. -/
structure Opens (opened : Nat) (f : Formatter Feed) (left : Nat) (g : Formatter Feed) : Prop where
  regular : g.Regular
  script : ∃ more, g.script.toList = f.script.toList ++ more ∧ depth? opened more = some left
  bodies : g.bodies + opened = f.bodies + left

namespace Opens

variable {f g h : Formatter Feed} {opened between left : Nat}

theorem trans (first : Opens opened f between g) (second : Opens between g left h) :
    Opens opened f left h := by
  obtain ⟨more, split, found⟩ := first.script
  obtain ⟨others, splitMore, foundMore⟩ := second.script
  refine ⟨second.regular, ⟨more ++ others, ?_, ?_⟩, ?_⟩
  · rw [splitMore, split, List.append_assoc]
  · rw [depth?_append, found, Option.bind_some, foundMore]
  · have bodies := first.bodies
    have bodiesMore := second.bodies
    omega

theorem ofLevel (level : Level f g) (opened : Nat) : Opens opened f opened g := by
  obtain ⟨more, split, stays⟩ := level.script
  exact ⟨level.regular, ⟨more, split, depth?_of_not_isShift stays opened⟩, by rw [level.bodies]⟩

theorem indent (regular : f.Regular) :
    Opens opened f (opened + 1) { f.indent with bodiesOpened := f.bodiesOpened + 1 } := by
  refine ⟨invariant_regular.countOpened (invariant_regular.perform regular rfl),
    ⟨[.indent], by simp [Formatter.indent, perform], rfl⟩, ?_⟩
  simp only [Formatter.bodies, Formatter.indent, perform]
  omega

theorem unindent (regular : f.Regular) :
    Opens (opened + 1) f opened { f.unindent with bodiesClosed := f.bodiesClosed + 1 } := by
  refine ⟨invariant_regular.countClosed (invariant_regular.perform regular rfl),
    ⟨[.unindent], by simp [Formatter.unindent, perform], rfl⟩, ?_⟩
  simp only [Formatter.bodies, Formatter.unindent, perform]
  omega

theorem openBrace (regular : f.Regular) (opened : Nat) :
    Opens opened f (opened + 1) f.openBrace := by
  have inside := (Level.refl regular).endLine.advance.endLine
  exact (ofLevel inside opened).trans (indent inside.regular)

theorem closeBrace (regular : f.Regular) (opened : Nat) :
    Opens (opened + 1) f opened f.closeBrace := by
  have before := (Level.refl regular).endLine
  have closed : Opens (opened + 1) f.endLine opened _ := unindent before.regular
  have after := (Level.refl closed.regular).advance
  exact ((ofLevel before (opened + 1)).trans closed).trans (ofLevel after opened)

end Opens

/-- A round of the loop of a declaration keeps account of the open bodies. -/
theorem opens_declarationRound {state next : Nat × Formatter Feed}
    (goes : declarationRound state = .more next) (regular : state.2.Regular) :
    Opens state.1 state.2 next.1 next.2 := by
  have marked := (Level.refl regular).markDeclaration
  have start := Opens.ofLevel marked state.1
  have turn := declarationTurn state
  rw [goes] at turn
  cases turn with
  | leftBrace => exact start.trans (.openBrace marked.regular _)
  | rightBrace => exact start.trans (.closeBrace marked.regular _)
  | assignment => exact .ofLevel (marked.expression .semicolon) _
  | semicolon => exact .ofLevel marked.advance.endLine _
  | other => exact .ofLevel marked.advance _

theorem opens_reaches {state later : Nat × Formatter Feed}
    (reaches : Reaches declarationRound state later) (regular : state.2.Regular) :
    Opens state.1 state.2 later.1 later.2 := by
  induction reaches with
  | here state => exact .ofLevel (.refl regular) state.1
  | more goes _ ih =>
    have first := opens_declarationRound goes regular
    exact first.trans (ih first.regular)

/-- A declaration ends outside of all bodies or at the end of the source. -/
theorem level_declarationRound {state : Nat × Formatter Feed} {result : Formatter Feed}
    (leaves : declarationRound state = .done result) (regular : state.2.Regular) :
    Level state.2 result ∧ (state.2.kind = .endOfFile ∨ state.1 = 0) := by
  have turn := declarationTurn state
  rw [leaves] at turn
  cases turn with
  | stop stops => exact ⟨.refl regular, stops.elim (fun closed => Or.inr closed.1) Or.inl⟩
  | unmatched => exact ⟨(Level.refl regular).markDeclaration, Or.inr rfl⟩

end Formatter

end CListing
