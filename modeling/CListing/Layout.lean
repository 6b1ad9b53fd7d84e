/-!
# Layouts

The measures of a listing. The layout engine takes any measures; a run accepts only sensible ones
and names the first that is not.
-/

namespace CListing

/-- The measures of a listing. -/
structure Layout where
  /-- Columns per level of indentation. -/
  indentSize : Int := 4
  /-- Columns before every line. -/
  leftMargin : Int := 0
  /-- Lines per page without the heading. -/
  linesPerPage : Int := 56
  /-- Columns of the name in the heading. -/
  headingWidth : Int := 70
  /-- Columns of a line. -/
  lineWidth : Int := 78
deriving DecidableEq, Repr, Inhabited

namespace Layout

/-- A measure that a run does not accept, with its value. -/
inductive Fault
  | indentSize (value : Int)
  | leftMargin (value : Int)
  | linesPerPage (value : Int)
  | headingWidth (value : Int)
  | lineWidth (value : Int)
deriving DecidableEq, Repr

/-- The wording of a fault. -/
def Fault.message : Fault → String
  | indentSize value => "Indent size must be at least 1, got " ++ toString value
  | leftMargin value => "Left margin can't be negative, got " ++ toString value
  | linesPerPage value => "Page length must be at least 1 line, got " ++ toString value
  | headingWidth value => "Heading width can't be negative, got " ++ toString value
  | lineWidth value => "Line width must be at least 10 characters, got " ++ toString value

/-- The layout is fit for a run. -/
structure Acceptable (layout : Layout) : Prop where
  indentSize_pos : 1 ≤ layout.indentSize
  leftMargin_nonneg : 0 ≤ layout.leftMargin
  linesPerPage_pos : 1 ≤ layout.linesPerPage
  headingWidth_nonneg : 0 ≤ layout.headingWidth
  lineWidth_ge : 10 ≤ layout.lineWidth

/-- The first measure that a run does not accept. -/
def fault? (layout : Layout) : Option Fault :=
  if layout.indentSize < 1 then some (.indentSize layout.indentSize)
  else if layout.leftMargin < 0 then some (.leftMargin layout.leftMargin)
  else if layout.linesPerPage < 1 then some (.linesPerPage layout.linesPerPage)
  else if layout.headingWidth < 0 then some (.headingWidth layout.headingWidth)
  else if layout.lineWidth < 10 then some (.lineWidth layout.lineWidth)
  else none

/-- No measure is at fault exactly in the acceptable layouts. -/
theorem fault?_eq_none_iff (layout : Layout) : layout.fault? = none ↔ layout.Acceptable := by
  constructor
  · intro faultless
    unfold fault? at faultless
    split at faultless <;> try contradiction
    split at faultless <;> try contradiction
    split at faultless <;> try contradiction
    split at faultless <;> try contradiction
    split at faultless <;> try contradiction
    constructor <;> omega
  · rintro ⟨indent, margin, lines, heading, width⟩
    unfold fault?
    rw [if_neg (by omega), if_neg (by omega), if_neg (by omega), if_neg (by omega),
      if_neg (by omega)]

end Layout

end CListing
