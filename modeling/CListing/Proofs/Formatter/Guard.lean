import CListing.Proofs.Formatter.Simulation
import CListing.Proofs.Reader.Items

/-!
# Where a comment could begin

Two neighbours that are written without a blank between them begin a comment if the first is a
slash and the second begins with a slash or an asterisk. Operators of this kind have categories
that no recognizer lets join such a neighbour, and their spelling does not either.
-/

namespace CListing

open Scan

namespace Category

/-- Some recognizer lets a token of the category join what stands before it. -/
def joinsLeftSomewhere (category : Category) : Bool :=
  category = .increment || Formatter.mayJoinLeft category

/-- Some recognizer lets a token of the category join what follows it. -/
def joinsRightSomewhere : Category → Bool
  | .increment | .unaryOrBinary => true
  | _ => false

theorem joinsLeft_declarationSpacing {category : Category}
    (apart : category.joinsLeftSomewhere = false) :
    category.declarationSpacing.joinsLeft = false := by
  cases category <;> first | rfl | contradiction

theorem joinsLeft_expressionSpacing {category : Category}
    (apart : category.joinsLeftSomewhere = false) (previous : Category) :
    (category.expressionSpacing previous).joinsLeft = false := by
  unfold expressionSpacing
  split
  · contradiction
  · split <;> rfl
  · rfl

theorem joinsRight_declarationSpacing {category : Category}
    (apart : category.joinsRightSomewhere = false) :
    category.declarationSpacing.joinsRight = false := by
  cases category <;> first | rfl | contradiction

theorem joinsRight_expressionSpacing {category : Category}
    (apart : category.joinsRightSomewhere = false) (previous : Category) :
    (category.expressionSpacing previous).joinsRight = false := by
  unfold expressionSpacing
  split
  · contradiction
  · contradiction
  · rfl

end Category

/-- No blank is left out beside the lexeme where a comment could begin. -/
structure Guarded (lexeme : List Char) (spacing : Spacing) : Prop where
  left (opens : MayOpenComment lexeme) : spacing.joinsLeft = false
  right (slash : lexeme = ['/']) : spacing.joinsRight = false

namespace Item

/-- A text can have the item: it is not empty, and if a comment could begin with it, its category
is one that no recognizer lets join its neighbour. -/
structure Sound (item : Item) : Prop where
  notEnd : item.category ≠ .endOfFile
  nonempty (token : item.isDirective = false) : item.lexeme ≠ []
  left (opens : MayOpenComment item.lexeme) : item.category.joinsLeftSomewhere = false
  right (slash : item.lexeme = ['/']) : item.category.joinsRightSomewhere = false

end Item

/-- The spacing of an operator with which a comment could begin joins nothing. -/
theorem guarded_named? (lexeme : List Char) :
    Guarded lexeme (((Operator.named? lexeme).map (·.spacing)).getD .free) := by
  have table : ∀ entry ∈ Operator.table,
      (MayOpenComment entry.spelling → entry.spacing.joinsLeft = false) ∧
        (entry.spelling = ['/'] → entry.spacing.joinsRight = false) := by decide +kernel
  cases found : Operator.named? lexeme with
  | none => exact ⟨fun _ => rfl, fun _ => rfl⟩
  | some operator =>
    obtain ⟨member, rfl⟩ := Operator.named?_spec found
    obtain ⟨left, right⟩ := table operator member
    exact ⟨left, right⟩

namespace Scan

/-- The category of an operator with which a comment could begin. -/
theorem category_operator {c : Char} (rest : List Char) (opens : c = '*' ∨ c = '/') :
    (Scan.operator c rest).category.joinsLeftSomewhere = false ∧
      ((Scan.operator c rest).extent = ['/'] →
        (Scan.operator c rest).category.joinsRightSomewhere = false) := by
  have table : ∀ entry ∈ Operator.table,
      (MayOpenComment entry.spelling → entry.category.joinsLeftSomewhere = false) ∧
        (entry.spelling = ['/'] → entry.category.joinsRightSomewhere = false) := by decide +kernel
  unfold Scan.operator
  cases found : Operator.longest? (c :: rest) with
  | none => exact ⟨rfl, fun _ => rfl⟩
  | some best =>
    obtain ⟨member, begins, _⟩ := Operator.longest?_eq_some_iff.mp found
    obtain ⟨left, right⟩ := table best member
    refine ⟨left ?_, right⟩
    cases spelled : best.spelling with
    | nil => exact absurd spelled (Operator.spelling_ne_nil member)
    | cons d more =>
      rw [spelled] at begins
      rw [(List.cons_prefix_cons.mp begins).1]
      rcases opens with rfl | rfl
      · exact Or.inl rfl
      · exact Or.inr rfl

theorem sound_of_directive {scan : Scan} (directive : scan.category = .directive) :
    scan.item.Sound := by
  refine ⟨by simp [item, directive], ?_, ?_, ?_⟩
  · intro token
    simp [Item.isDirective, item, directive] at token
  · intro _
    rw [item, directive]
    rfl
  · intro _
    rw [item, directive]
    rfl

/-- What a scan finds before the end is an item that a text can have. -/
theorem sound_item {text : List Char} (free : ¬ AtBarrier text)
    (notEnd : (ofText text).category ≠ .endOfFile) (noComment : (ofText text).category ≠ .comment) :
    (ofText text).item.Sound := by
  by_cases directive : (ofText text).category = .directive
  · exact sound_of_directive directive
  have lexeme : (ofText text).item.lexeme = (ofText text).extent :=
    (isToken_of_category notEnd noComment directive).lexeme
  cases text with
  | nil => contradiction
  | cons c rest =>
    obtain ⟨more, extent⟩ := exists_extent_eq_cons free
    rw [extent] at lexeme
    -- A token with which a comment could begin is an operator.
    have operator (opens : c = '*' ∨ c = '/') : ofText (c :: rest) = Scan.operator c rest := by
      apply ofText_operator
      · rcases opens with rfl | rfl <;> decide
      · rcases opens with rfl | rfl <;> exact startsNumber_cons _ rest
      · exact Bool.eq_false_iff.mpr fun opens => noComment (category_of_opensComment opens)
    refine ⟨notEnd, ?_, ?_, ?_⟩
    · intro _
      rw [lexeme]
      exact List.cons_ne_nil c more
    · intro opens
      rw [MayOpenComment, lexeme] at opens
      have mark : c = '*' ∨ c = '/' := by simpa using opens
      rw [item, operator mark]
      exact (category_operator rest mark).1
    · intro slash
      have alone := extent.trans (lexeme.symm.trans slash)
      have mark : c = '*' ∨ c = '/' := Or.inr (List.cons.inj (lexeme.symm.trans slash)).1
      rw [operator mark] at alone
      rw [item, operator mark]
      exact (category_operator rest mark).2 alone

end Scan

/-- The items of a text are items that a text can have. -/
theorem Reads.sound {text : List Char} {items : List Item} {closed : Bool}
    (reads : Reads text items closed) : ∀ item ∈ items, item.Sound := by
  induction reads with
  | ending _ => simp
  | comment _ _ ih => exact ih
  | item notEnd noComment later ih =>
    intro item member
    rcases List.mem_cons.mp member with rfl | later_member
    · exact sound_item (Reads.item notEnd noComment later).free notEnd noComment
    · exact ih item later_member

end CListing
