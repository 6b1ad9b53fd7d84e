import CListing.Scan.Number
import CListing.Unicode.Blank

/-!
# Character classes side by side

The classes of characters come from separate tables. Two facts tie them together: every digit is a
number, and no blank is a letter or a number. So a number begins with a character of numbers, and a
blank ends every word and every number.
-/

namespace CListing.Unicode

/-- A table that holds the code point has a span around it. -/
theorem exists_span_of_covers {table : List (Nat × Nat)} {n : Nat}
    (held : covers table n = true) : ∃ span ∈ table, span.1 ≤ n ∧ n ≤ span.2 := by
  induction table with
  | nil => simp [covers] at held
  | cons span rest ih =>
    obtain ⟨first, last⟩ := span
    simp only [covers] at held
    split at held
    · contradiction
    · rename_i notBelow
      rw [Bool.or_eq_true, decide_eq_true_eq] at held
      rcases held with within | later
      · exact ⟨(first, last), List.mem_cons_self, Nat.le_of_not_lt notBelow, within⟩
      · obtain ⟨span, member, around⟩ := ih later
        exact ⟨span, List.mem_cons_of_mem _ member, around⟩

/-- In an ascending table a span around the code point is enough. -/
theorem covers_of_span {table : List (Nat × Nat)} {n : Nat}
    (ascending : table.Pairwise fun first second => first.1 ≤ second.1)
    {span : Nat × Nat} (member : span ∈ table) (lower : span.1 ≤ n) (upper : n ≤ span.2) :
    covers table n = true := by
  induction ascending with
  | nil => contradiction
  | @cons head rest before _ ih =>
    obtain ⟨first, last⟩ := head
    rcases List.mem_cons.mp member with rfl | later
    · have notBelow : ¬ n < first := Nat.not_lt.mpr lower
      simp [covers, notBelow, upper]
    · have notBelow : ¬ n < first := Nat.not_lt.mpr (Nat.le_trans (before span later) lower)
      simp [covers, notBelow, ih later]

/-- Every span of one table lies in a span of another. -/
def Within (inner outer : List (Nat × Nat)) : Prop :=
  ∀ span ∈ inner, ∃ wider ∈ outer, wider.1 ≤ span.1 ∧ span.2 ≤ wider.2

/-- No span of one table meets a span of another. -/
def Apart (first second : List (Nat × Nat)) : Prop :=
  ∀ span ∈ first, ∀ other ∈ second, span.2 < other.1 ∨ other.2 < span.1

instance (inner outer : List (Nat × Nat)) : Decidable (Within inner outer) :=
  inferInstanceAs (Decidable (∀ span ∈ inner, ∃ wider ∈ outer, _))

instance (first second : List (Nat × Nat)) : Decidable (Apart first second) :=
  inferInstanceAs (Decidable (∀ span ∈ first, ∀ other ∈ second, _))

theorem Within.covers {inner outer : List (Nat × Nat)} (within : Within inner outer)
    (ascending : outer.Pairwise fun first second => first.1 ≤ second.1) {n : Nat}
    (held : covers inner n = true) : covers outer n = true := by
  obtain ⟨span, member, lower, upper⟩ := exists_span_of_covers held
  obtain ⟨wider, wide, below, above⟩ := within span member
  exact covers_of_span ascending wide (Nat.le_trans below lower) (Nat.le_trans upper above)

theorem Apart.covers {first second : List (Nat × Nat)} (apart : Apart first second) {n : Nat}
    (held : covers first n = true) : covers second n = false := by
  cases both : Unicode.covers second n with
  | false => rfl
  | true =>
    obtain ⟨span, member, lower, upper⟩ := exists_span_of_covers held
    obtain ⟨other, otherMember, otherLower, otherUpper⟩ := exists_span_of_covers both
    rcases apart span member other otherMember with before | after <;> omega

theorem numberSpans_ascending :
    numberSpans.Pairwise fun first second => first.1 ≤ second.1 := by
  decide +kernel

theorem decimalSpans_within : Within decimalSpans numberSpans := by
  decide +kernel

theorem specialDigitSpans_within : Within specialDigitSpans numberSpans := by
  decide +kernel

theorem blankSpans_apart_letterSpans : Apart blankSpans letterSpans := by
  decide +kernel

theorem blankSpans_apart_numberSpans : Apart blankSpans numberSpans := by
  decide +kernel

/-- Every digit is a number. -/
theorem isNumber_of_isDigit {c : Char} (digit : isDigit c = true) : isNumber c = true := by
  rw [isDigit, Bool.or_eq_true] at digit
  rcases digit with decimal | special
  · exact decimalSpans_within.covers numberSpans_ascending decimal
  · exact specialDigitSpans_within.covers numberSpans_ascending special

/-- No blank is a letter or a number. -/
theorem isAlphanumeric_of_isBlank {c : Char} (blank : isBlank c = true) :
    isAlphanumeric c = false := by
  have notLetter : isLetter c = false := blankSpans_apart_letterSpans.covers blank
  have notNumber : isNumber c = false := blankSpans_apart_numberSpans.covers blank
  simp [isAlphanumeric, notLetter, notNumber]

/-- No blank is a digit. -/
theorem isDigit_of_isBlank {c : Char} (blank : isBlank c = true) : isDigit c = false := by
  cases digit : isDigit c with
  | false => rfl
  | true =>
    have number := isNumber_of_isDigit digit
    have notNumber : isNumber c = false := blankSpans_apart_numberSpans.covers blank
    rw [notNumber] at number
    contradiction

/-- A blank is none of the characters of a table without blanks. -/
theorem ne_of_isBlank {c d : Char} (blank : isBlank c = true) (ink : isBlank d = false) :
    c ≠ d := by
  rintro rfl
  rw [blank] at ink
  contradiction

end CListing.Unicode

namespace CListing

open Unicode

/-- A blank belongs to no word. -/
theorem isWordChar_of_isBlank {c : Char} (blank : isBlank c = true) : isWordChar c = false := by
  have notUnderscore : c ≠ '_' := ne_of_isBlank blank (by decide)
  simp [isWordChar, isAlphanumeric_of_isBlank blank, notUnderscore]

/-- A blank goes on with no number. -/
theorem extendsNumber_of_isBlank {c : Char} (lexeme : List Char) (blank : isBlank c = true) :
    extendsNumber lexeme c = false := by
  have notPoint : c ≠ '.' := ne_of_isBlank blank (by decide)
  have notPlus : c ≠ '+' := ne_of_isBlank blank (by decide)
  have notMinus : c ≠ '-' := ne_of_isBlank blank (by decide)
  simp [extendsNumber, isNumberChar, isAlphanumeric_of_isBlank blank, notPoint, notPlus, notMinus]

/-- Every digit is a character of numbers. -/
theorem isNumberChar_of_isDigit {c : Char} (digit : isDigit c = true) : isNumberChar c = true := by
  simp [isNumberChar, isAlphanumeric, isNumber_of_isDigit digit]

end CListing
