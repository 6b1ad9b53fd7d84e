import CListing.Proofs.Unicode.Classes

/-!
# Numbers and what follows them

A number goes on as far as its characters extend it, so it ends exactly where the text ends or the
next character does not extend it. What was cut off as a number is one by itself, and it is the
longest beginning of the text that is one. The question whether a sign may follow is never put
before the first character, where it would have no answer.
-/

namespace CListing

open Unicode

/-- A text begins a number with a digit or with a point before a digit. -/
theorem startsNumber_cons (c : Char) (rest : List Char) :
    startsNumber (c :: rest) = (isDigit c || (c = '.' && rest.head?.any isDigit)) := by
  have point : isDigit '.' = false := by decide
  by_cases dot : c = '.'
  · subst dot
    cases rest with
    | nil => rfl
    | cons d more => simp [startsNumber, point]
  · cases rest with
    | nil => simp [startsNumber, dot]
    | cons d more => simp [startsNumber, dot]

theorem head_of_startsNumber {c : Char} {rest : List Char}
    (starts : startsNumber (c :: rest) = true) : isDigit c = true ∨ c = '.' := by
  rw [startsNumber_cons, Bool.or_eq_true, Bool.and_eq_true, decide_eq_true_iff] at starts
  exact starts.imp_right And.left

theorem ne_of_startsNumber {c d : Char} {rest : List Char}
    (starts : startsNumber (c :: rest) = true) (noDigit : isDigit d = false) (noPoint : d ≠ '.') :
    c ≠ d := by
  rintro rfl
  rcases head_of_startsNumber starts with digit | point
  · rw [noDigit] at digit
    contradiction
  · exact noPoint point

/-- A number begins with no blank. -/
theorem isBlank_of_startsNumber {c : Char} {rest : List Char}
    (starts : startsNumber (c :: rest) = true) : isBlank c = false := by
  cases blank : isBlank c with
  | false => rfl
  | true =>
    exact absurd rfl
      (ne_of_startsNumber starts (isDigit_of_isBlank blank) (ne_of_isBlank blank (by decide)))

/-- A number can be begun by itself if it can be begun before other text, and has two characters or
begins with a digit. -/
theorem startsNumber_append {text : List Char} (starts : startsNumber text = true)
    (rest : List Char) : startsNumber (text ++ rest) = true := by
  cases text with
  | nil => contradiction
  | cons c more =>
    rw [List.cons_append, startsNumber_cons]
    rw [startsNumber_cons] at starts
    cases more with
    | nil => simpa using Or.inl (by simpa using starts)
    | cons d others => simpa using starts

/-- A number that was cut off whole goes on with what follows it. -/
theorem numberFrom_append {lexeme text : List Char}
    (whole : numberFrom lexeme text = { extent := lexeme ++ text, rest := [] })
    (rest : List Char) : numberFrom lexeme (text ++ rest) = numberFrom (lexeme ++ text) rest := by
  induction text generalizing lexeme with
  | nil => simp
  | cons c more ih =>
    by_cases extends_ : extendsNumber lexeme c = true
    · rw [numberFrom, if_pos extends_] at whole
      rw [List.cons_append, numberFrom, if_pos extends_]
      have tail := @ih (lexeme ++ [c]) (by simpa using whole)
      simpa using tail
    · rw [numberFrom, if_neg extends_] at whole
      simp at whole

/-- What was cut off as a number is one by itself, and the next character does not extend it. -/
theorem numberFrom_spec (lexeme text : List Char) :
    ∃ more rest, text = more ++ rest ∧
      numberFrom lexeme text = { extent := lexeme ++ more, rest := rest } ∧
      numberFrom lexeme more = { extent := lexeme ++ more, rest := [] } ∧
      ∀ c, rest.head? = some c → extendsNumber (lexeme ++ more) c = false := by
  induction text generalizing lexeme with
  | nil => exact ⟨[], [], rfl, by simp [numberFrom], by simp [numberFrom], by simp⟩
  | cons c others ih =>
    by_cases extends_ : extendsNumber lexeme c = true
    · obtain ⟨more, rest, split, cut, whole, stops⟩ := ih (lexeme ++ [c])
      refine ⟨c :: more, rest, by rw [split]; rfl, ?_, ?_, by simpa using stops⟩
      · rw [numberFrom, if_pos extends_, cut]
        simp
      · rw [numberFrom, if_pos extends_, whole]
        simp
    · refine ⟨[], c :: others, rfl, ?_, by simp [numberFrom], by simpa using extends_⟩
      rw [numberFrom, if_neg extends_]
      simp

/-- No character that was taken along is a blank. -/
theorem isBlank_of_mem_numberFrom {lexeme text : List Char}
    (whole : numberFrom lexeme text = { extent := lexeme ++ text, rest := [] }) {c : Char}
    (inside : c ∈ text) : isBlank c = false := by
  induction text generalizing lexeme with
  | nil => contradiction
  | cons d more ih =>
    by_cases extends_ : extendsNumber lexeme d = true
    · rw [numberFrom, if_pos extends_] at whole
      rcases List.mem_cons.mp inside with rfl | later
      · cases blank : isBlank c with
        | false => rfl
        | true =>
          rw [extendsNumber_of_isBlank lexeme blank] at extends_
          contradiction
      · exact @ih (lexeme ++ [d]) (by simpa using whole) later
    · rw [numberFrom, if_neg extends_] at whole
      simp at whole

/-- A number ends where the next character does not extend it, and only there. -/
theorem extent_numberFrom_eq_iff (lexeme rest : List Char) :
    (numberFrom lexeme rest).extent = lexeme ↔
      ∀ c, rest.head? = some c → extendsNumber lexeme c = false := by
  cases rest with
  | nil => simp [numberFrom]
  | cons c more =>
    by_cases extends_ : extendsNumber lexeme c = true
    · obtain ⟨further, others, _, cut, _⟩ := numberFrom_spec (lexeme ++ [c]) more
      simp [numberFrom, extends_, cut]
    · simp [numberFrom, extends_]

/-- A number that is cut off begins with the first character of the text. -/
theorem numberCut_eq {c : Char} {rest : List Char} (starts : startsNumber (c :: rest) = true) :
    numberCut (c :: rest) = numberFrom [c] rest := by
  have extends_ : extendsNumber [] c = true := by
    rcases head_of_startsNumber starts with digit | rfl
    · rw [extendsNumber, isNumberChar_of_isDigit digit]
      rfl
    · rfl
  rw [numberCut, numberFrom, if_pos extends_, List.nil_append]

/-- What is cut off as a number begins like one. -/
theorem startsNumber_extent {text : List Char} (starts : startsNumber text = true) :
    startsNumber (numberCut text).extent = true := by
  cases text with
  | nil => contradiction
  | cons c rest =>
    obtain ⟨more, others, split, cut, _, stops⟩ := numberFrom_spec [c] rest
    rw [numberCut_eq starts, cut, List.singleton_append, startsNumber_cons]
    rw [startsNumber_cons] at starts
    cases more with
    | cons d inner =>
      rw [split] at starts
      exact starts
    | nil =>
      -- A point alone is no number, because the digit after it would have been taken along.
      by_cases digit : isDigit c = true
      · rw [digit]
        rfl
      · rw [Bool.not_eq_true] at digit
        rw [digit, Bool.false_or, Bool.and_eq_true] at starts
        cases rest with
        | nil => simp at starts
        | cons d inner =>
          obtain rfl : others = d :: inner := by simpa using split.symm
          have stop := stops d rfl
          rw [extendsNumber, isNumberChar_of_isDigit (by simpa using starts.2)] at stop
          contradiction

theorem extent_numberCut_ne_nil {text : List Char} (starts : startsNumber text = true) :
    (numberCut text).extent ≠ [] := by
  intro empty
  have begins := startsNumber_extent starts
  rw [empty] at begins
  contradiction

/-! ## The longest number -/

/-- The letter announces an exponent in the given number. -/
def IsExponentLetter (number : List Char) (letter : Char) : Prop :=
  if ['0', 'x'] <+: number ∨ ['0', 'X'] <+: number then letter = 'p' ∨ letter = 'P'
  else letter = 'e' ∨ letter = 'E'

/-- Every character is a letter, a number, a point, or a sign directly behind a letter that
announces an exponent. -/
def IsNumberText (number : List Char) : Prop :=
  ∀ before c after, number = before ++ c :: after →
    isAlphanumeric c = true ∨ c = '.' ∨
      (c = '+' ∨ c = '-') ∧ ∃ letter, before.getLast? = some letter ∧ IsExponentLetter number letter

theorem isNumberChar_iff (c : Char) :
    isNumberChar c = true ↔ isAlphanumeric c = true ∨ c = '.' := by
  simp [isNumberChar]

theorem mem_exponentMarks_iff (number : List Char) (letter : Char) :
    letter ∈ exponentMarks number ↔ IsExponentLetter number letter := by
  unfold exponentMarks IsExponentLetter
  split
  · simp
  · simp
  · rename_i lower upper
    rw [if_neg]
    · simp
    · rintro (⟨rest, rfl⟩ | ⟨rest, rfl⟩)
      · exact lower rest rfl
      · exact upper rest rfl

/-- The mark of a hexadecimal number has two characters, so what follows them does not count. -/
theorem isExponentLetter_append {c d : Char} {before after : List Char} {letter : Char} :
    IsExponentLetter (c :: d :: before ++ after) letter ↔
      IsExponentLetter (c :: d :: before) letter := by
  simp [IsExponentLetter]

/-- A number begins with no letter that announces an exponent. -/
theorem not_isExponentLetter_of_startsNumber {c : Char} {rest number : List Char}
    (starts : startsNumber (c :: rest) = true) : ¬ IsExponentLetter number c := by
  unfold IsExponentLetter
  split
  · rintro (rfl | rfl)
    · exact ne_of_startsNumber starts (by decide) (by decide) rfl
    · exact ne_of_startsNumber starts (by decide) (by decide) rfl
  · rintro (rfl | rfl)
    · exact ne_of_startsNumber starts (by decide) (by decide) rfl
    · exact ne_of_startsNumber starts (by decide) (by decide) rfl

/-- A character extends a number exactly if it belongs to it, whatever follows. -/
theorem extendsNumber_iff {c : Char} {rest : List Char} (starts : startsNumber (c :: rest) = true)
    (more : List Char) (d : Char) (after : List Char) :
    extendsNumber (c :: more) d = true ↔
      isAlphanumeric d = true ∨ d = '.' ∨
        (d = '+' ∨ d = '-') ∧ ∃ letter, (c :: more).getLast? = some letter ∧
          IsExponentLetter (c :: more ++ d :: after) letter := by
  have same {letter : Char} (last : (c :: more).getLast? = some letter) :
      IsExponentLetter (c :: more) letter ↔ IsExponentLetter (c :: more ++ d :: after) letter := by
    cases more with
    | nil =>
      obtain rfl : c = letter := by simpa using last
      exact iff_of_false (not_isExponentLetter_of_startsNumber starts)
        (not_isExponentLetter_of_startsNumber starts)
    | cons e others => exact isExponentLetter_append.symm
  have awaits : awaitsSign? (c :: more) = some true ↔
      ∃ letter, (c :: more).getLast? = some letter ∧
        IsExponentLetter (c :: more ++ d :: after) letter := by
    rw [awaitsSign?, Option.map_eq_some_iff]
    refine exists_congr fun letter => and_congr_right fun last => ?_
    rw [List.contains_iff_mem, mem_exponentMarks_iff, same last]
  rw [extendsNumber, Bool.or_eq_true, isNumberChar_iff, Bool.and_eq_true, beq_iff_eq, awaits,
    or_assoc, Bool.or_eq_true, decide_eq_true_iff, decide_eq_true_iff]

/-- A text that begins like a number is one exactly if each further character extends what stands
before it. -/
theorem isNumberText_cons_iff {c : Char} {rest : List Char}
    (starts : startsNumber (c :: rest) = true) (more : List Char) :
    IsNumberText (c :: more) ↔
      ∀ before d after, more = before ++ d :: after → extendsNumber (c :: before) d = true := by
  constructor
  · rintro alike before d after rfl
    exact (extendsNumber_iff starts before d after).mpr (alike (c :: before) d after rfl)
  · intro extends_ before d after split
    cases before with
    | nil =>
      obtain ⟨rfl, -⟩ := List.cons.inj split
      rcases head_of_startsNumber starts with digit | point
      · have plain := (isNumberChar_iff c).mp (isNumberChar_of_isDigit digit)
        exact plain.imp_right Or.inl
      · exact Or.inr (Or.inl point)
    | cons e before =>
      obtain ⟨rfl, inside⟩ := List.cons.inj split
      rw [split]
      exact (extendsNumber_iff starts before d after).mp (extends_ before d after inside)

/-- Each character that was taken along extends what stands before it. -/
theorem extendsNumber_of_whole {lexeme text : List Char}
    (whole : numberFrom lexeme text = { extent := lexeme ++ text, rest := [] })
    {before : List Char} {c : Char} {after : List Char} (split : text = before ++ c :: after) :
    extendsNumber (lexeme ++ before) c = true := by
  induction before generalizing lexeme text with
  | nil =>
    rw [split, List.nil_append, numberFrom] at whole
    rw [List.append_nil]
    split at whole
    · assumption
    · simp at whole
  | cons d before ih =>
    rw [split, List.cons_append, numberFrom] at whole
    split at whole
    · have later := @ih (lexeme ++ [d]) _ (by simpa using whole) rfl
      simpa using later
    · simp at whole

/-- The longest beginning of the text whose characters all belong to a number. -/
structure IsLongestNumber (number text : List Char) : Prop where
  within : number <+: text
  isNumberText : IsNumberText number
  longest {other : List Char} (inside : other <+: text) (alike : IsNumberText other) :
    other <+: number

/-- What is cut off as a number is the longest beginning that is one. -/
theorem isLongestNumber_extent {text : List Char} (starts : startsNumber text = true) :
    IsLongestNumber (numberCut text).extent text := by
  cases text with
  | nil => contradiction
  | cons c rest =>
    obtain ⟨more, others, rfl, cut, whole, stops⟩ := numberFrom_spec [c] rest
    rw [numberCut_eq starts, cut]
    have within : c :: more <+: c :: (more ++ others) := List.prefix_append (c :: more) others
    refine ⟨within, ?_, fun {other} inside alike => ?_⟩
    · exact (isNumberText_cons_iff starts more).mpr fun before d after split =>
        extendsNumber_of_whole whole split
    · rcases List.prefix_or_prefix_of_prefix inside within with shorter | ⟨further, rfl⟩
      · exact shorter
      · cases further with
        | nil => simp
        | cons d after =>
          -- The first character behind the number would extend it.
          have next : others.head? = some d := by
            obtain ⟨rest, same⟩ := inside
            have tails : d :: (after ++ rest) = others := by simpa using same
            rw [← tails]
            rfl
          have goesOn := (isNumberText_cons_iff starts _).mp alike more d after rfl
          have stop := stops d next
          rw [List.singleton_append, goesOn] at stop
          contradiction

/-! ## The question for a sign -/

/-- Whether the character goes on with the number read so far. For a sign the answer depends on
whether the number awaits one, and there is none before the first character. -/
def extendsNumber? (lexeme : List Char) (c : Char) : Option Bool :=
  if isNumberChar c then some true
  else if c = '+' || c = '-' then awaitsSign? lexeme
  else some false

/-- The longest number that begins with `lexeme` and goes on with the text, unless a question on the
way has no answer. -/
def numberFrom? (lexeme : List Char) : List Char → Option Cut
  | [] => some { extent := lexeme, rest := [] }
  | c :: rest =>
    match extendsNumber? lexeme c with
    | none => none
    | some true => numberFrom? (lexeme ++ [c]) rest
    | some false => some { extent := lexeme, rest := c :: rest }

theorem extendsNumber?_of_ne_nil {lexeme : List Char} (begun : lexeme ≠ []) (c : Char) :
    extendsNumber? lexeme c = some (extendsNumber lexeme c) := by
  cases awaits : awaitsSign? lexeme with
  | none => exact absurd ((awaitsSign?_eq_none_iff lexeme).mp awaits) begun
  | some answer =>
    unfold extendsNumber? extendsNumber
    rw [awaits]
    cases isNumberChar c <;> cases (c = '+' || c = '-') <;> simp

/-- Behind the first character every question has an answer. -/
theorem numberFrom?_of_ne_nil {lexeme : List Char} (begun : lexeme ≠ []) (text : List Char) :
    numberFrom? lexeme text = some (numberFrom lexeme text) := by
  induction text generalizing lexeme with
  | nil => rfl
  | cons c rest ih =>
    rw [numberFrom?, numberFrom, extendsNumber?_of_ne_nil begun]
    cases extendsNumber lexeme c with
    | true => exact ih (by simp)
    | false => rfl

/-- A question has no answer exactly if the text begins with a sign. -/
theorem numberFrom?_nil (text : List Char) :
    numberFrom? [] text =
      if text.head? = some '+' ∨ text.head? = some '-' then none else some (numberCut text) := by
  cases text with
  | nil => rfl
  | cons c rest =>
    by_cases sign : c = '+' ∨ c = '-'
    · have unanswered : extendsNumber? [] c = none := by
        rcases sign with rfl | rfl <;> rfl
      rw [if_pos (by simpa using sign), numberFrom?, unanswered]
    · have answered : extendsNumber? [] c = some (extendsNumber [] c) := by
        have noSign : (decide (c = '+') || decide (c = '-')) = false := by simpa using sign
        rw [extendsNumber?, extendsNumber, noSign]
        cases isNumberChar c <;> rfl
      rw [if_neg (by simpa using sign), numberFrom?, answered, numberCut, numberFrom]
      cases extendsNumber [] c with
      | true => exact numberFrom?_of_ne_nil (by simp) rest
      | false => rfl

/-- Where a number begins every question has an answer. -/
theorem numberFrom?_of_startsNumber {text : List Char} (starts : startsNumber text = true) :
    numberFrom? [] text = some (numberCut text) := by
  cases text with
  | nil => contradiction
  | cons c rest =>
    have unsigned : ¬ ((c :: rest).head? = some '+' ∨ (c :: rest).head? = some '-') := by
      rintro (plus | minus)
      · exact ne_of_startsNumber starts (by decide) (by decide) (Option.some.inj plus)
      · exact ne_of_startsNumber starts (by decide) (by decide) (Option.some.inj minus)
    rw [numberFrom?_nil, if_neg unsigned]

end CListing
