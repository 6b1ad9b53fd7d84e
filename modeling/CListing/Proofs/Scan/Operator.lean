import CListing.Proofs.Unicode.Classes
import CListing.Unicode.Upper
import CListing.Token.Vocabulary

/-!
# The longest operator

The operator at the head of a text is the one entry of the table that the text begins with and that
no longer such entry exceeds. So it does not change when the text grows behind it, unless the new
text completes a longer operator.
-/

namespace CListing.Operator

open Unicode

theorem eq_of_spelling_eq {first second : Operator} (firstMember : first ∈ table)
    (secondMember : second ∈ table) (same : first.spelling = second.spelling) :
    first = second := by
  have distinct : ∀ operator ∈ table, ∀ other ∈ table,
      operator.spelling = other.spelling → operator = other := by decide +kernel
  exact distinct first firstMember second secondMember same

theorem longest?_eq_some_iff {text : List Char} {operator : Operator} :
    longest? text = some operator ↔
      operator ∈ table ∧ operator.spelling <+: text ∧
        ∀ other ∈ table, other.spelling <+: text →
          other.spelling.length ≤ operator.spelling.length := by
  have maximal {found : Operator} (eq : longest? text = some found) :
      found ∈ table ∧ found.spelling <+: text ∧
        ∀ other ∈ table, other.spelling <+: text →
          other.spelling.length ≤ found.spelling.length := by
    have eq' := eq
    rw [longest?, List.find?_eq_some_iff_append] at eq'
    obtain ⟨matched, before, after, split, unmatched⟩ := eq'
    have ordered := table_pairwise_length
    rw [split, List.pairwise_append, List.pairwise_cons] at ordered
    refine ⟨List.mem_of_find?_eq_some eq, spelling_isPrefix eq, ?_⟩
    intro other member begins
    rw [split] at member
    rcases List.mem_append.mp member with earlier | later
    · have fails := unmatched other earlier
      rw [List.isPrefixOf_iff_prefix.mpr begins] at fails
      contradiction
    · rcases List.mem_cons.mp later with rfl | last
      · exact Nat.le_refl _
      · exact ordered.2.1.1 other last
  constructor
  · exact maximal
  · rintro ⟨member, begins, longest⟩
    cases eq : longest? text with
    | none =>
      rw [longest?, List.find?_eq_none] at eq
      exact absurd (List.isPrefixOf_iff_prefix.mpr begins) (eq operator member)
    | some found =>
      obtain ⟨foundMember, foundBegins, foundLongest⟩ := maximal eq
      have sameLength : found.spelling.length = operator.spelling.length :=
        Nat.le_antisymm (longest found foundMember foundBegins)
          (foundLongest operator member begins)
      have same : found.spelling = operator.spelling :=
        (List.prefix_of_prefix_length_le foundBegins begins
          (Nat.le_of_eq sameLength)).eq_of_length sameLength
      rw [eq_of_spelling_eq foundMember member same]

theorem longest?_eq_none_iff {text : List Char} :
    longest? text = none ↔ ∀ operator ∈ table, ¬ operator.spelling <+: text := by
  rw [longest?, List.find?_eq_none]
  simp only [List.isPrefixOf_iff_prefix]

/-- Three characters make an operator only if the first two do. -/
theorem exists_spelling_take_two {operator : Operator} (member : operator ∈ table)
    (long : 2 < operator.spelling.length) :
    ∃ shorter ∈ table, shorter.spelling = operator.spelling.take 2 := by
  have closed : ∀ entry ∈ table, 2 < entry.spelling.length →
      ∃ shorter ∈ table, shorter.spelling = entry.spelling.take 2 := by decide +kernel
  exact closed operator member long

theorem length_spelling_le {operator : Operator} (member : operator ∈ table) :
    operator.spelling.length ≤ 3 := by
  have bounded : ∀ entry ∈ table, entry.spelling.length ≤ 3 := by decide +kernel
  exact bounded operator member

/-- The first character of an operator is one by itself. -/
theorem exists_spelling_take_one {operator : Operator} (member : operator ∈ table) :
    ∃ single ∈ table, single.spelling = operator.spelling.take 1 := by
  have closed : ∀ entry ∈ table, ∃ single ∈ table, single.spelling = entry.spelling.take 1 := by
    decide +kernel
  exact closed operator member

/-- The operator with the given spelling. -/
def named? (spelling : List Char) : Option Operator :=
  table.find? fun operator => operator.spelling == spelling

theorem named?_spec {spelling : List Char} {operator : Operator}
    (found : named? spelling = some operator) :
    operator ∈ table ∧ operator.spelling = spelling :=
  ⟨List.mem_of_find?_eq_some found, by simpa using List.find?_some found⟩

theorem named?_spelling {operator : Operator} (member : operator ∈ table) :
    named? operator.spelling = some operator := by
  cases eq : named? operator.spelling with
  | none =>
    rw [named?, List.find?_eq_none] at eq
    exact absurd (beq_self_eq_true operator.spelling) (eq operator member)
  | some found =>
    obtain ⟨foundMember, same⟩ := named?_spec eq
    rw [eq_of_spelling_eq foundMember member same]

/-- The character begins neither a word nor a number, literal or directive. -/
def isMark (c : Char) : Bool :=
  !isUpper c && !(isLetter c || c = '_') && !isDigit c && c ≠ '"' && c ≠ '\'' && c ≠ '#'

/-- Operators consist of characters that begin nothing else, and that are no blanks. -/
theorem isMark_of_mem_spelling {operator : Operator} (member : operator ∈ table) {c : Char}
    (inside : c ∈ operator.spelling) : isMark c = true ∧ isBlank c = false := by
  have marks : (table.all fun entry =>
      entry.spelling.all fun d => isMark d && !isBlank d) = true := by
    decide +kernel
  rw [List.all_eq_true] at marks
  have here := List.all_eq_true.mp (marks operator member) c inside
  rwa [Bool.and_eq_true, Bool.not_eq_true'] at here

/-- No operator is spelled like a text whose first character begins something else. -/
theorem named?_eq_none {c : Char} (rest : List Char) (other : isMark c = false) :
    named? (c :: rest) = none := by
  cases found : named? (c :: rest) with
  | none => rfl
  | some operator =>
    obtain ⟨member, spelled⟩ := named?_spec found
    have mark := (isMark_of_mem_spelling member (c := c) (by simp [spelled])).1
    rw [other] at mark
    contradiction

end CListing.Operator
