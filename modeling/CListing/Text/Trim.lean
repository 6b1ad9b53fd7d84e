import CListing.Unicode.Blank

/-!
# Trimming

Blanks are taken off the ends of a text. The main statements say that trimming the end keeps every
character before the last one that is not blank, and that a second trimming changes nothing.
-/

namespace CListing.Text

open Unicode

/-- The text without the blanks at its end. -/
def trimEnd : List Char → List Char
  | [] => []
  | c :: rest =>
    match trimEnd rest with
    | [] => if isBlank c then [] else [c]
    | kept => c :: kept

/-- The text without the blanks at its beginning. -/
def trimStart (text : List Char) : List Char :=
  text.dropWhile isBlank

/-- The text without the blanks at both ends. -/
def trim (text : List Char) : List Char :=
  trimEnd (trimStart text)

@[simp]
theorem trimEnd_nil : trimEnd [] = [] :=
  rfl

/-- What is trimmed off consists of blanks. -/
theorem exists_blank_suffix (text : List Char) :
    ∃ blanks, text = trimEnd text ++ blanks ∧ ∀ c ∈ blanks, isBlank c = true := by
  induction text with
  | nil => exact ⟨[], rfl, by simp⟩
  | cons c rest ih =>
    obtain ⟨blanks, split, blank⟩ := ih
    cases kept : trimEnd rest with
    | nil =>
      rw [kept, List.nil_append] at split
      by_cases first : isBlank c = true
      · refine ⟨c :: blanks, ?_, by simpa [first] using blank⟩
        simp only [trimEnd, kept, first]
        rw [split]
        rfl
      · refine ⟨blanks, ?_, blank⟩
        simp only [trimEnd, kept, first]
        rw [split]
        rfl
    | cons d more =>
      rw [kept] at split
      refine ⟨blanks, ?_, blank⟩
      simp only [trimEnd, kept]
      rw [split]
      rfl

/-- A trimmed text does not end in a blank. -/
theorem isBlank_getLast_trimEnd {text : List Char} {c : Char}
    (last : (trimEnd text).getLast? = some c) : isBlank c = false := by
  induction text with
  | nil => simp at last
  | cons d rest ih =>
    cases kept : trimEnd rest with
    | nil =>
      by_cases first : isBlank d = true
      · simp [trimEnd, kept, first] at last
      · simp only [trimEnd, kept, first] at last
        simp_all
    | cons e more =>
      rw [kept] at ih
      simp only [trimEnd, kept] at last
      exact ih (by simpa using last)

/-- A text that does not end in a blank is kept whole. -/
theorem trimEnd_eq_self {text : List Char}
    (last : ∀ c, text.getLast? = some c → isBlank c = false) : trimEnd text = text := by
  induction text with
  | nil => rfl
  | cons c rest ih =>
    cases rest with
    | nil => simp [trimEnd, last c rfl]
    | cons d more =>
      have kept := ih fun e found => last e (by simpa using found)
      simp only [trimEnd] at kept ⊢
      rw [kept]

/-- Trimming twice is trimming once. -/
@[simp]
theorem trimEnd_trimEnd (text : List Char) : trimEnd (trimEnd text) = trimEnd text :=
  trimEnd_eq_self fun _ last => isBlank_getLast_trimEnd last

end CListing.Text
