import CListing.Proofs.Formatter.Simulation

/-!
# Invariants of the walk

A property of formatters that the elementary steps keep holds at the end of a file if it holds at
the beginning. The first one says that the walk comes off: no loop is given up, and no token is put
back while another one is.
-/

namespace CListing.Formatter

/-- The property is kept by the elementary steps inside declarations and statements. -/
structure BodyInvariant (P : Formatter Feed → Prop) : Prop where
  performInner {f command} (holds : P f) (inner : command.isInner = true) : P (f.perform command)
  reportMissing {f} (required : Category) (holds : P f) : P (f.reportMissing required)
  markDeclaration {f} (holds : P f) : P f.markDeclaration
  markExpression {f} (previous : Category) (holds : P f) : P (f.markExpression previous)
  joinLeft {f} (holds : P f) (joins : mayJoinLeft f.kind = true) : P (f.adjust .left)
  advance {f} (holds : P f) : P f.advance
  lookAgain {f} (holds : P f) (name : f.kind.isName = true) :
    P (f.advance.putBack.lookAt f.token)
  countOpened {f} (holds : P f) : P { f with bodiesOpened := f.bodiesOpened + 1 }
  countClosed {f} (holds : P f) : P { f with bodiesClosed := f.bodiesClosed + 1 }

/-- The property is kept by all elementary steps. -/
structure Invariant (P : Formatter Feed → Prop) : Prop extends BodyInvariant P where
  perform {f command} (holds : P f) (silent : command.isSilent = true) : P (f.perform command)
  performInner holds inner := perform holds (Command.isSilent_of_isInner inner)
  countFunction {f} (holds : P f) : P { f with functions := f.functions + 1 }

/-- A walk simulates itself inside declarations and statements, and the property holds on the
way. -/
theorem BodyInvariant.simulation {P : Formatter Feed → Prop} (invariant : BodyInvariant P) :
    BodySimulation fun f g => f = g ∧ P f where
  kind := by
    rintro f _ ⟨rfl, _⟩
    rfl
  remaining := by
    rintro f _ ⟨rfl, _⟩
    rfl
  performInner := by
    rintro f _ command ⟨rfl, holds⟩ inner
    exact ⟨rfl, invariant.performInner holds inner⟩
  reportMissing := by
    rintro f _ required ⟨rfl, holds⟩
    exact ⟨rfl, invariant.reportMissing required holds⟩
  markDeclaration := by
    rintro f _ ⟨rfl, holds⟩
    exact ⟨rfl, invariant.markDeclaration holds⟩
  markExpression := by
    rintro f _ previous ⟨rfl, holds⟩
    exact ⟨rfl, invariant.markExpression previous holds⟩
  joinLeft := by
    rintro f _ ⟨rfl, holds⟩ joins
    exact ⟨rfl, invariant.joinLeft holds joins⟩
  advance := by
    rintro f _ ⟨rfl, holds⟩
    exact ⟨rfl, invariant.advance holds⟩
  lookAgain := by
    rintro f _ ⟨rfl, holds⟩ name
    exact ⟨rfl, invariant.lookAgain holds name⟩
  countOpened := by
    rintro f _ ⟨rfl, holds⟩
    exact ⟨rfl, invariant.countOpened holds⟩
  countClosed := by
    rintro f _ ⟨rfl, holds⟩
    exact ⟨rfl, invariant.countClosed holds⟩

/-- A loop whose rounds consume tokens keeps a property that its rounds keep. -/
theorem repeatWhile_keeps {P : Formatter Feed → Prop} {condition : Formatter Feed → Bool}
    {step : Formatter Feed → Formatter Feed}
    (progress : ∀ f, condition f = true → (step f).remaining < f.remaining)
    (keeps : ∀ f, P f → P (step f)) {budget : Nat} {f : Formatter Feed} (holds : P f)
    (enough : f.remaining < budget) : P (repeatWhile condition step budget f) := by
  induction budget generalizing f with
  | zero => exact absurd enough (Nat.not_lt_zero _)
  | succ budget ih =>
    simp only [repeatWhile]
    split
    · rename_i goes
      have fewer := progress f goes
      exact ih (keeps f holds) (by omega)
    · exact holds

namespace Invariant

variable {P : Formatter Feed → Prop}

/-- A walk simulates itself, and the property holds on the way. -/
theorem simulation (invariant : Invariant P) : Simulation fun f g => f = g ∧ P f where
  toBodySimulation := invariant.toBodyInvariant.simulation
  perform := by
    rintro f _ command ⟨rfl, holds⟩ silent
    exact ⟨rfl, invariant.perform holds silent⟩
  countFunction := by
    rintro f _ ⟨rfl, holds⟩
    exact ⟨rfl, invariant.countFunction holds⟩

theorem file (invariant : Invariant P) {f : Formatter Feed} (holds : P f) : P f.file :=
  (invariant.simulation.file ⟨rfl, holds⟩).2

end Invariant

/-- With no token put back, an advance fetches the next token and writes out the current one. -/
theorem advance_of_free {formatter : Formatter Feed}
    (free : formatter.cursor.lookahead? = none) :
    formatter.advance =
      { formatter with
        cursor :=
          { formatter.cursor with
            source := formatter.cursor.source.fetch.2
            current := formatter.cursor.source.fetch.1.token
            spacing := formatter.cursor.source.fetch.1.spacing?.getD .free
            lookahead? := none }
        token := formatter.cursor.source.fetch.1.token
        script := formatter.script ++
          (formatter.cursor.release ++ formatter.cursor.source.fetch.1.commands)
        notes := formatter.notes ++ (formatter.cursor.source.fetch.1.notes ++
          formatter.cursor.traceOf formatter.cursor.source.fetch.1.token) } := by
  unfold advance Cursor.next
  rw [free]
  rfl

/-- An advance to the token put back writes nothing. -/
theorem advance_of_put {formatter : Formatter Feed} {token : Token}
    (put : formatter.cursor.lookahead? = some token) :
    formatter.advance =
      { formatter with
        cursor := { formatter.cursor with current := token, lookahead? := none }
        token := token } := by
  unfold advance Cursor.next
  rw [put]
  simp

/-- Right after an advance the place for a token put back is free. -/
theorem lookahead?_advance {σ : Type} [TokenSource σ] (formatter : Formatter σ) :
    formatter.advance.cursor.lookahead? = none :=
  Cursor.lookahead?_next formatter.cursor

theorem putBack_advance {σ : Type} [TokenSource σ] (formatter : Formatter σ) :
    formatter.advance.putBack =
      { formatter.advance with
        cursor :=
          { formatter.advance.cursor with
            lookahead? := some formatter.advance.cursor.current } } := by
  simp only [putBack, Cursor.putBack, lookahead?_advance]

/-- The formatter looks at the current token of its cursor, or at a name before it that it looked
past. -/
def Focused (formatter : Formatter Feed) : Prop :=
  (formatter.cursor.lookahead? = none ∧ formatter.token = formatter.cursor.current) ∨
    (formatter.cursor.lookahead? = some formatter.cursor.current ∧
      formatter.token.category.isName = true)

theorem focused_advance (formatter : Formatter Feed) : formatter.advance.Focused :=
  Or.inl ⟨lookahead?_advance formatter, rfl⟩

theorem focused_lookAgain {formatter : Formatter Feed} (name : formatter.kind.isName = true) :
    (formatter.advance.putBack.lookAt formatter.token).Focused := by
  rw [putBack_advance]
  exact Or.inr ⟨rfl, name⟩

namespace Focused

variable {formatter : Formatter Feed}

/-- A formatter that does not look at the current token looks at a name. -/
theorem kind_or_name (focus : formatter.Focused) :
    formatter.kind = formatter.cursor.current.category ∨ formatter.kind.isName = true := by
  rcases focus with ⟨_, same⟩ | ⟨_, name⟩
  · left
    rw [kind, same]
  · exact Or.inr name

/-- A formatter that does not look at a name looks at the current token. -/
theorem free (focus : formatter.Focused) (noName : formatter.kind.isName = false) :
    formatter.cursor.lookahead? = none ∧ formatter.token = formatter.cursor.current := by
  rcases focus with here | ⟨_, name⟩
  · exact here
  · rw [kind, name] at noName
    contradiction

/-- With no token put back, the formatter looks at the current one. -/
theorem token_of_free (focus : formatter.Focused) (free : formatter.cursor.lookahead? = none) :
    formatter.token = formatter.cursor.current := by
  rcases focus with ⟨_, same⟩ | ⟨put, _⟩
  · exact same
  · rw [free] at put
    contradiction

/-- A formatter that looks at the end has come to the end. -/
theorem category_current (focus : formatter.Focused) (last : formatter.kind = .endOfFile) :
    formatter.cursor.current.category = .endOfFile := by
  rcases focus.kind_or_name with same | name
  · rw [← same, last]
  · rw [last] at name
    contradiction

end Focused

theorem invariant_focused : Invariant Focused where
  perform holds _ := holds
  reportMissing _ holds := holds
  markDeclaration holds := holds
  markExpression _ holds := holds
  joinLeft holds _ := holds
  advance {f} _ := focused_advance f
  lookAgain _ name := focused_lookAgain name
  countFunction holds := holds
  countOpened holds := holds
  countClosed holds := holds

/-- No loop was given up and no second token was put back. -/
def ComesOff (formatter : Formatter Feed) : Prop :=
  formatter.endless = false ∧ formatter.misuse? = none

theorem invariant_comesOff : Invariant ComesOff where
  perform holds _ := holds
  reportMissing _ holds := holds
  markDeclaration holds := holds
  markExpression _ holds := holds
  joinLeft holds _ := holds
  advance holds := holds
  lookAgain {f} holds _ := by
    rw [putBack_advance]
    exact holds
  countFunction holds := holds
  countOpened holds := holds
  countClosed holds := holds

/-- Every walk along a feed comes off. -/
theorem comesOff_file (feed : Feed) (traced : Bool) (notes : List Note) :
    (ofTokens feed traced notes).file.ComesOff :=
  invariant_comesOff.file ⟨rfl, rfl⟩

end CListing.Formatter
