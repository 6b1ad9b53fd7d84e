/-!
# Spacing of lexemes

A blank separates two neighbours on a line unless the left one joins what follows it or the right
one joins what stands before it. Marks on one token accumulate. They form a lattice whose least
element joins nothing.
-/

namespace CListing

/-- On which sides a lexeme is written without a separating blank. -/
structure Spacing where
  /-- No blank before the lexeme. -/
  joinsLeft : Bool := false
  /-- No blank after the lexeme. -/
  joinsRight : Bool := false
deriving DecidableEq, Repr, Inhabited

namespace Spacing

/-- A blank on both sides. -/
def free : Spacing := {}

/-- No blank before. -/
def left : Spacing := { joinsLeft := true }

/-- No blank after. -/
def right : Spacing := { joinsRight := true }

/-- No blank on either side. -/
def both : Spacing := { joinsLeft := true, joinsRight := true }

/-- Both marks together. -/
def merge (first second : Spacing) : Spacing where
  joinsLeft := first.joinsLeft || second.joinsLeft
  joinsRight := first.joinsRight || second.joinsRight

/-- The number of a mark: one for the left side and two for the right side. -/
def toNat (spacing : Spacing) : Nat :=
  (if spacing.joinsLeft then 1 else 0) + (if spacing.joinsRight then 2 else 0)

/-- The mark in the two lowest binary digits of a number; the other digits mean nothing, and a
negative number counts as its residue. -/
def ofInt (number : Int) : Spacing where
  joinsLeft := number % 2 == 1
  joinsRight := number / 2 % 2 == 1

theorem ofInt_toNat (spacing : Spacing) : ofInt spacing.toNat = spacing := by
  obtain ⟨joinsLeft, joinsRight⟩ := spacing
  cases joinsLeft <;> cases joinsRight <;> rfl

theorem merge_free (spacing : Spacing) : spacing.merge free = spacing := by
  simp [merge, free]

theorem free_merge (spacing : Spacing) : free.merge spacing = spacing := by
  simp [merge, free]

theorem merge_self (spacing : Spacing) : spacing.merge spacing = spacing := by
  simp [merge]

theorem merge_comm (first second : Spacing) : first.merge second = second.merge first := by
  simp [merge, Bool.or_comm]

theorem merge_assoc (first second third : Spacing) :
    (first.merge second).merge third = first.merge (second.merge third) := by
  simp [merge, Bool.or_assoc]

end Spacing

end CListing
