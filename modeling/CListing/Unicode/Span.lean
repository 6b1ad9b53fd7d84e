/-!
# Spans of code points

A property of characters is a table of closed spans of code points, in ascending order and apart
from each other. The search stops at the first span above the code point, so a table answers at
once for the characters of its first spans.
-/

namespace CListing.Unicode

/-- The span of the table that holds the code point. -/
def spanOf? : List (Nat × Nat) → Nat → Option (Nat × Nat)
  | [], _ => none
  | (first, last) :: rest, n =>
    if n < first then none
    else if n ≤ last then some (first, last)
    else spanOf? rest n

/-- Some span of the table holds the code point. -/
def covers : List (Nat × Nat) → Nat → Bool
  | [], _ => false
  | (first, last) :: rest, n => if n < first then false else n ≤ last || covers rest n

/-- The same for spans that hold only every `step`-th code point from their first one on. -/
def coversStepped : List (Nat × Nat × Nat) → Nat → Bool
  | [], _ => false
  | (first, last, step) :: rest, n =>
    if n < first then false
    else if n ≤ last then (n - first) % step == 0
    else coversStepped rest n

theorem isSome_spanOf? (table : List (Nat × Nat)) (n : Nat) :
    (spanOf? table n).isSome = covers table n := by
  induction table with
  | nil => rfl
  | cons span rest ih =>
    obtain ⟨first, last⟩ := span
    by_cases below : n < first
    · simp [spanOf?, covers, below]
    · by_cases within : n ≤ last
      · simp [spanOf?, covers, below, within]
      · simp [spanOf?, covers, below, within, ih]

end CListing.Unicode
