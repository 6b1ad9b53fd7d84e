import CListing.Proofs.Scan.Number
import CListing.Proofs.Scan.Operator
import CListing.Scan.Basic

/-!
# Which scanner a text goes to

The first character of a text decides which scanner takes it; only a letter before a quote, a point
and a slash need a second character. There is one equation for each scanner, and one of them
applies to every text.
-/

namespace CListing.Scan

open Unicode Operator

/-- The text begins with the mark of a wide literal and its quote. -/
def opensWide (text : List Char) : Bool :=
  text.head? = some 'L' && (text.tail.head? = some '"' || text.tail.head? = some '\'')

/-- The text begins with the opening marks of a comment. -/
def opensComment (text : List Char) : Bool :=
  text.head? = some '/' && (text.tail.head? = some '*' || text.tail.head? = some '/')

/-- The text begins with a character that may end the opening marks of a comment. -/
def MayOpenComment (text : List Char) : Prop :=
  text.head? = some '*' ∨ text.head? = some '/'

instance (text : List Char) : Decidable (MayOpenComment text) :=
  inferInstanceAs (Decidable (_ ∨ _))

theorem opensComment_cons_iff {c : Char} {rest : List Char} :
    opensComment (c :: rest) = true ↔
      c = '/' ∧ (rest.head? = some '*' ∨ rest.head? = some '/') := by
  rw [opensComment, Bool.and_eq_true, Bool.or_eq_true, decide_eq_true_iff, decide_eq_true_iff,
    decide_eq_true_iff, List.head?_cons, Option.some.injEq, List.tail_cons]

/-- A comment begins with a slash and a star or with two slashes. -/
theorem exists_of_opensComment {text : List Char} (opens : opensComment text = true) :
    ∃ rest, text = '/' :: '*' :: rest ∨ text = '/' :: '/' :: rest := by
  cases text with
  | nil => contradiction
  | cons c rest =>
    obtain ⟨rfl, second⟩ := opensComment_cons_iff.mp opens
    cases rest with
    | nil => simp at second
    | cons d more =>
      rw [List.head?_cons, Option.some.injEq, Option.some.injEq] at second
      exact ⟨more, by simpa using second⟩

/-- Only a text that begins in upper case may begin a wide literal. -/
theorem opensWide_of_not_upper {c : Char} (lower : isUpper c = false) (rest : List Char) :
    opensWide (c :: rest) = false := by
  have notMark : c ≠ 'L' := by
    rintro rfl
    exact absurd lower (by decide)
  simp [opensWide, notMark]

theorem exists_of_opensWide {text : List Char} (wide : opensWide text = true) :
    ∃ quote more, (quote = '"' ∨ quote = '\'') ∧ text = 'L' :: quote :: more := by
  match text with
  | [] => contradiction
  | [c] => simp [opensWide] at wide
  | c :: quote :: more =>
    obtain ⟨rfl, mark⟩ : c = 'L' ∧ (quote = '"' ∨ quote = '\'') := by
      simpa [opensWide] using wide
    exact ⟨quote, more, mark, rfl⟩

theorem ofText_wide {quote : Char} (mark : quote = '"' ∨ quote = '\'') (rest : List Char) :
    ofText ('L' :: quote :: rest) = literal ['L'] quote rest := by
  rcases mark with rfl | rfl <;> rfl

/-- All scanners but the one of wide literals, in the order in which they are tried. -/
theorem ofText_cons {c : Char} {rest : List Char} (narrow : opensWide (c :: rest) = false) :
    ofText (c :: rest) =
      if isUpper c then word (some .upperCaseIdentifier) (c :: rest)
      else if isLetter c || c = '_' then word none (c :: rest)
      else if startsNumber (c :: rest) then ofCut .constant (numberCut (c :: rest))
      else if c = '"' || c = '\'' then literal [] c rest
      else if c = '#' then directive (c :: rest)
      else if c = '/' && rest.head? = some '*' then blockComment (c :: rest)
      else if c = '/' && rest.head? = some '/' then lineComment (c :: rest)
      else operator c rest := by
  rw [ofText]
  · rintro more rfl rfl
    contradiction
  · rintro more rfl rfl
    contradiction

theorem ofText_upper {c : Char} {rest : List Char} (narrow : opensWide (c :: rest) = false)
    (upper : isUpper c = true) :
    ofText (c :: rest) = word (some .upperCaseIdentifier) (c :: rest) := by
  rw [ofText_cons narrow, if_pos upper]

theorem ofText_word {c : Char} (lower : isUpper c = false)
    (letter : (isLetter c || c = '_') = true) (rest : List Char) :
    ofText (c :: rest) = word none (c :: rest) := by
  rw [ofText_cons (opensWide_of_not_upper lower rest), if_neg (by simp [lower]), if_pos letter]

theorem ofText_number {c : Char} {rest : List Char} (lower : isUpper c = false)
    (noLetter : (isLetter c || c = '_') = false) (starts : startsNumber (c :: rest) = true) :
    ofText (c :: rest) = ofCut .constant (numberCut (c :: rest)) := by
  rw [ofText_cons (opensWide_of_not_upper lower rest), if_neg (by simp [lower]),
    if_neg (by simp [noLetter]), if_pos starts]

theorem ofText_quote {quote : Char} (mark : quote = '"' ∨ quote = '\'') (rest : List Char) :
    ofText (quote :: rest) = literal [] quote rest := by
  have noNumber : startsNumber (quote :: rest) = false := by
    rcases mark with rfl | rfl <;> exact startsNumber_cons _ rest
  rcases mark with rfl | rfl <;>
  · rw [ofText_cons (opensWide_of_not_upper (by decide) rest), if_neg (by decide),
      if_neg (by decide), if_neg (by simp [noNumber]), if_pos (by decide)]

theorem ofText_directive (rest : List Char) : ofText ('#' :: rest) = directive ('#' :: rest) := by
  have noNumber : startsNumber ('#' :: rest) = false := startsNumber_cons '#' rest
  rw [ofText_cons (opensWide_of_not_upper (by decide) rest), if_neg (by decide),
    if_neg (by decide), if_neg (by simp [noNumber]), if_neg (by decide), if_pos rfl]

theorem ofText_mark {c : Char} {rest : List Char} (mark : isMark c = true)
    (noNumber : startsNumber (c :: rest) = false) :
    ofText (c :: rest) =
      if c = '/' && rest.head? = some '*' then blockComment (c :: rest)
      else if c = '/' && rest.head? = some '/' then lineComment (c :: rest)
      else operator c rest := by
  simp only [isMark, Bool.and_eq_true, Bool.not_eq_true', decide_eq_true_eq] at mark
  obtain ⟨⟨⟨⟨⟨lower, noLetter⟩, _⟩, noDouble⟩, noSingle⟩, noDirective⟩ := mark
  rw [ofText_cons (opensWide_of_not_upper lower rest), if_neg (by simp [lower]),
    if_neg (by simp [noLetter]), if_neg (by simp [noNumber]), if_neg (by simp [noDouble, noSingle]),
    if_neg noDirective]

theorem ofText_blockComment (rest : List Char) :
    ofText ('/' :: '*' :: rest) = blockComment ('/' :: '*' :: rest) := by
  rw [ofText_mark (by decide) (startsNumber_cons '/' ('*' :: rest)), if_pos (by simp)]

theorem ofText_lineComment (rest : List Char) :
    ofText ('/' :: '/' :: rest) = lineComment ('/' :: '/' :: rest) := by
  rw [ofText_mark (by decide) (startsNumber_cons '/' ('/' :: rest)), if_neg (by simp),
    if_pos (by simp)]

theorem ofText_operator {c : Char} {rest : List Char} (mark : isMark c = true)
    (noNumber : startsNumber (c :: rest) = false) (noComment : opensComment (c :: rest) = false) :
    ofText (c :: rest) = operator c rest := by
  rw [ofText_mark mark noNumber, if_neg, if_neg]
  · rintro starts
    simp_all [opensComment]
  · rintro starts
    simp_all [opensComment]

/-- What the first characters of a text say about the scanner that it goes to. -/
inductive Branch : Char → List Char → Prop
  | wide {quote : Char} {rest : List Char} (mark : quote = '"' ∨ quote = '\'') :
      Branch 'L' (quote :: rest)
  | upper {c : Char} {rest : List Char} (narrow : opensWide (c :: rest) = false)
      (upper : isUpper c = true) : Branch c rest
  | word {c : Char} {rest : List Char} (lower : isUpper c = false)
      (letter : (isLetter c || c = '_') = true) : Branch c rest
  | number {c : Char} {rest : List Char} (lower : isUpper c = false)
      (noLetter : (isLetter c || c = '_') = false) (starts : startsNumber (c :: rest) = true) :
      Branch c rest
  | quote {c : Char} {rest : List Char} (mark : c = '"' ∨ c = '\'') : Branch c rest
  | directive {rest : List Char} : Branch '#' rest
  | comment {c : Char} {rest : List Char} (opens : opensComment (c :: rest) = true) :
      Branch c rest
  | operator {c : Char} {rest : List Char} (mark : isMark c = true)
      (noNumber : startsNumber (c :: rest) = false)
      (noComment : opensComment (c :: rest) = false) : Branch c rest

/-- Every text goes to a scanner. -/
theorem branch (c : Char) (rest : List Char) : Branch c rest := by
  by_cases wide : opensWide (c :: rest) = true
  · obtain ⟨quote, more, mark, text⟩ := exists_of_opensWide wide
    obtain ⟨rfl, rfl⟩ := List.cons.inj text
    exact Branch.wide mark
  rw [Bool.not_eq_true] at wide
  by_cases upper : isUpper c = true
  · exact Branch.upper wide upper
  rw [Bool.not_eq_true] at upper
  by_cases letter : (isLetter c || c = '_') = true
  · exact Branch.word upper letter
  rw [Bool.not_eq_true] at letter
  by_cases starts : startsNumber (c :: rest) = true
  · exact Branch.number upper letter starts
  rw [Bool.not_eq_true] at starts
  by_cases double : c = '"'
  · exact Branch.quote (Or.inl double)
  by_cases single : c = '\''
  · exact Branch.quote (Or.inr single)
  by_cases sign : c = '#'
  · subst sign
    exact Branch.directive
  by_cases comment : opensComment (c :: rest) = true
  · exact Branch.comment comment
  rw [Bool.not_eq_true] at comment
  have noDigit : isDigit c = false := by
    rw [startsNumber_cons, Bool.or_eq_false_iff] at starts
    exact starts.1
  exact Branch.operator (by simp [isMark, upper, letter, noDigit, double, single, sign]) starts
    comment

end CListing.Scan
