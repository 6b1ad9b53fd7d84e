import CListing.Proofs.Scan.Branch
import CListing.Proofs.Scan.Literal

/-!
# Spellings

The declarative side of the scanner: which texts are the lexeme of one token, by category, and
which characters such a lexeme runs on into. The main statement says that one character of what
follows decides: the scanner cuts a lexeme off as that token if the next character does not go on
with it, and otherwise it cuts off something else. A blank never goes on with a lexeme.
-/

namespace CListing

open Unicode Operator

/-- The text is a lexeme of the category: by itself it is one token, and it is no open literal. -/
inductive Spelling : Category → List Char → Prop
  | upper {c : Char} {more : List Char} (upper : isUpper c = true)
      (inside : ∀ d ∈ c :: more, isWordChar d = true) :
      Spelling .upperCaseIdentifier (c :: more)
  | word {c : Char} {more : List Char} (lower : isUpper c = false)
      (letter : (isLetter c || c = '_') = true)
      (inside : ∀ d ∈ c :: more, isWordChar d = true) :
      Spelling (wordCategory (c :: more)) (c :: more)
  | number {c : Char} {more : List Char} (lower : isUpper c = false)
      (noLetter : (isLetter c || c = '_') = false) (starts : startsNumber (c :: more) = true)
      (whole : numberCut (c :: more) = { extent := c :: more, rest := [] }) :
      Spelling .constant (c :: more)
  | literal {mark : List Char} {quote : Char} {body : List Char}
      (markEq : mark = [] ∨ mark = ['L']) (quoteEq : quote = '"' ∨ quote = '\'')
      (whole : ∀ rest, literalTail quote (body ++ rest) = { extent := body, rest := rest })
      (last : body.getLast? = some quote) :
      Spelling (if quote = '"' then .string else .constant) (mark ++ quote :: body)
  | operator {operator : Operator} (member : operator ∈ table) :
      Spelling operator.category operator.spelling
  | foreign {c : Char} (mark : isMark c = true) (ink : isBlank c = false)
      (noOperator : ∀ operator ∈ table, operator.spelling.head? ≠ some c) :
      Spelling .foreign [c]

namespace Scan

/-- The lexeme runs on into a text that begins with the character, so that the two do not read
apart. -/
def runsOn (lexeme : List Char) (c : Char) : Bool :=
  match lexeme with
  | [] => false
  | first :: _ =>
    if opensWide lexeme then false
    else if isUpper first then isWordChar c || (lexeme = ['L'] && (c = '"' || c = '\''))
    else if isLetter first || first = '_' then isWordChar c
    else if startsNumber lexeme then extendsNumber lexeme c
    else if first = '"' || first = '\'' then false
    else
      (lexeme = ['.'] && isDigit c) || (lexeme = ['/'] && (c = '*' || c = '/')) ||
        (named? (lexeme ++ [c])).isSome

/-- The lexeme reads apart from the text behind it. -/
def ReadsApart (lexeme rest : List Char) : Prop :=
  rest.head?.any (runsOn lexeme) = false

instance (lexeme rest : List Char) : Decidable (ReadsApart lexeme rest) :=
  inferInstanceAs (Decidable (_ = _))

/-- A token before the rest of a text. -/
def ofToken (category : Category) (lexeme rest : List Char) : Scan :=
  { ofCut category { extent := lexeme, rest := rest } with
    spacing? := (named? lexeme).map (·.spacing) }

theorem ofCut_eq_ofToken {category : Category} {lexeme rest : List Char}
    (unnamed : named? lexeme = none) :
    ofCut category { extent := lexeme, rest := rest } = ofToken category lexeme rest := by
  simp [ofToken, unnamed, ofCut]

/-! ## One character of what follows decides -/

/-- A lexeme is cut off before a text exactly if it reads apart from it, and then as the token
that it is by itself. -/
def Decided (category : Category) (lexeme rest : List Char) : Prop :=
  if ReadsApart lexeme rest then ofText (lexeme ++ rest) = ofToken category lexeme rest
  else (ofText (lexeme ++ rest)).extent ≠ lexeme

theorem decided_intro {category : Category} {lexeme rest : List Char}
    (apart : rest.head?.any (runsOn lexeme) = false →
      ofText (lexeme ++ rest) = ofToken category lexeme rest)
    (joined : rest.head?.any (runsOn lexeme) = true →
      (ofText (lexeme ++ rest)).extent ≠ lexeme) : Decided category lexeme rest := by
  unfold Decided
  split
  · rename_i reads
    exact apart reads
  · rename_i runs
    exact joined (by simpa [ReadsApart] using runs)

end Scan

namespace Cut

theorem span_append {p : Char → Bool} {body rest : List Char} (inside : ∀ c ∈ body, p c = true)
    (stops : rest.head?.any p = false) :
    span p (body ++ rest) = { extent := body, rest := rest } := by
  cases rest with
  | nil =>
    rw [span, List.takeWhile_append_of_pos inside, List.dropWhile_append_of_pos inside]
    simp
  | cons c more =>
    have stop : p c = false := by simpa using stops
    simp [span, List.takeWhile_append_of_pos inside, List.dropWhile_append_of_pos inside, stop]

theorem extent_span_append_ne {p : Char → Bool} {body rest : List Char}
    (inside : ∀ c ∈ body, p c = true) (goesOn : rest.head?.any p = true) :
    (span p (body ++ rest)).extent ≠ body := by
  cases rest with
  | nil => contradiction
  | cons c more =>
    have next : p c = true := by simpa using goesOn
    simp [span, List.takeWhile_append_of_pos inside, next]

end Cut

namespace Scan

theorem isMark_of_isUpper {c : Char} (upper : isUpper c = true) : isMark c = false := by
  simp [isMark, upper]

theorem isMark_of_letter {c : Char} (letter : (isLetter c || c = '_') = true) :
    isMark c = false := by
  simp only [Bool.or_eq_true, decide_eq_true_eq] at letter
  rcases letter with letter | rfl
  · simp [isMark, letter]
  · decide

theorem isDigit_of_isMark {c : Char} (mark : isMark c = true) : isDigit c = false := by
  simp only [isMark, Bool.and_eq_true, Bool.not_eq_true'] at mark
  exact mark.1.1.1.2

/-- No operator begins like a number. -/
theorem named?_eq_none_of_startsNumber {text : List Char} (starts : startsNumber text = true) :
    named? text = none := by
  cases found : named? text with
  | none => rfl
  | some operator =>
    obtain ⟨member, rfl⟩ := named?_spec found
    have noDigit (c : Char) (inside : c ∈ operator.spelling) : isDigit c = false :=
      isDigit_of_isMark (isMark_of_mem_spelling member inside).1
    generalize operator.spelling = text at noDigit starts
    cases text with
    | nil => exact absurd starts Bool.false_ne_true
    | cons c more =>
      rw [startsNumber_cons, noDigit c List.mem_cons_self] at starts
      cases more with
      | nil => simp at starts
      | cons d others => simp [noDigit d (by simp)] at starts

theorem isMark_of_quote {c : Char} (mark : c = '"' ∨ c = '\'') : isMark c = false := by
  rcases mark with rfl | rfl <;> decide

/-- Word characters are no quotes. -/
theorem ne_quote_of_isWordChar {c : Char} (inside : isWordChar c = true) : c ≠ '"' ∧ c ≠ '\'' := by
  constructor
  · rintro rfl
    exact absurd inside (by decide)
  · rintro rfl
    exact absurd inside (by decide)

/-- A text of word characters opens no wide literal by itself. -/
theorem opensWide_of_isWordChar {c : Char} {more : List Char}
    (inside : ∀ d ∈ c :: more, isWordChar d = true) : opensWide (c :: more) = false := by
  cases more with
  | nil => simp [opensWide]
  | cons d others => simp [opensWide, ne_quote_of_isWordChar (inside d (by simp))]

/-- An upper case word runs on into a word character, and an L of its own into a quote too. -/
theorem any_runsOn_upper {c : Char} {more : List Char} (upper : isUpper c = true)
    (inside : ∀ d ∈ c :: more, isWordChar d = true) (rest : List Char) :
    rest.head?.any (runsOn (c :: more)) =
      (rest.head?.any isWordChar || opensWide (c :: more ++ rest)) := by
  have narrow := opensWide_of_isWordChar inside
  cases rest with
  | nil => simp [narrow]
  | cons d others =>
    simp only [List.head?_cons, Option.any_some, runsOn, narrow, upper, Bool.false_eq_true,
      if_false, if_true]
    cases more with
    | nil => simp [opensWide]
    | cons e more => simp [opensWide, ne_quote_of_isWordChar (inside e (by simp))]

theorem decided_upper {c : Char} {more : List Char} (upper : isUpper c = true)
    (inside : ∀ d ∈ c :: more, isWordChar d = true) (rest : List Char) :
    Decided .upperCaseIdentifier (c :: more) rest := by
  have runs := any_runsOn_upper upper inside rest
  have cut (narrow : opensWide (c :: more ++ rest) = false) :
      ofText (c :: more ++ rest) = word (some .upperCaseIdentifier) (c :: more ++ rest) :=
    ofText_upper narrow upper
  apply decided_intro
  · intro apart
    obtain ⟨stops, narrow⟩ := Bool.or_eq_false_iff.mp (runs.symm.trans apart)
    rw [cut narrow, word, Cut.span_append inside stops]
    exact ofCut_eq_ofToken (named?_eq_none more (isMark_of_isUpper upper))
  · intro joined
    cases wide : opensWide (c :: more ++ rest) with
    | true =>
      obtain ⟨d, others, mark, text⟩ := exists_of_opensWide wide
      rw [text, ofText_wide mark]
      -- the literal has the quote in it, the word has none
      intro same
      have quoted : d ∈ c :: more := by
        rw [← same]
        simp [literal, ofCut]
      have plain := ne_quote_of_isWordChar (inside d quoted)
      exact mark.elim plain.1 plain.2
    | false =>
      have goesOn : rest.head?.any isWordChar = true := by
        rwa [runs, wide, Bool.or_false] at joined
      rw [cut wide]
      exact Cut.extent_span_append_ne inside goesOn

theorem decided_word {c : Char} {more : List Char} (lower : isUpper c = false)
    (letter : (isLetter c || c = '_') = true)
    (inside : ∀ d ∈ c :: more, isWordChar d = true) (rest : List Char) :
    Decided (wordCategory (c :: more)) (c :: more) rest := by
  have next : runsOn (c :: more) = isWordChar := by
    funext d
    simp only [runsOn, opensWide_of_not_upper lower, lower, letter]
    simp
  have cut : ofText (c :: more ++ rest) = word none (c :: more ++ rest) :=
    ofText_word lower letter _
  apply decided_intro
  · intro stops
    rw [next] at stops
    rw [cut, word, Cut.span_append inside stops]
    exact ofCut_eq_ofToken (named?_eq_none more (isMark_of_letter letter))
  · intro goesOn
    rw [next] at goesOn
    rw [cut]
    exact Cut.extent_span_append_ne inside goesOn

theorem decided_number {c : Char} {more : List Char} (lower : isUpper c = false)
    (noLetter : (isLetter c || c = '_') = false) (starts : startsNumber (c :: more) = true)
    (whole : numberCut (c :: more) = { extent := c :: more, rest := [] }) (rest : List Char) :
    Decided .constant (c :: more) rest := by
  have next : runsOn (c :: more) = extendsNumber (c :: more) := by
    funext d
    simp only [runsOn, opensWide_of_not_upper lower, lower, noLetter, starts]
    simp
  have cut : ofText (c :: more ++ rest) = ofCut .constant (numberFrom (c :: more) rest) := by
    have goesOn : numberCut (c :: more ++ rest) = numberFrom (c :: more) rest :=
      numberFrom_append (by simpa [numberCut] using whole) rest
    rw [← goesOn]
    exact ofText_number lower noLetter (startsNumber_append starts rest)
  have unnamed := named?_eq_none_of_startsNumber starts
  have stops_iff := extent_numberFrom_eq_iff (c :: more) rest
  apply decided_intro
  · intro stops
    rw [next] at stops
    cases rest with
    | nil =>
      rw [cut, numberFrom]
      exact ofCut_eq_ofToken unnamed
    | cons d others =>
      have stop : extendsNumber (c :: more) d = false := by simpa using stops
      rw [cut, numberFrom, if_neg (by simp [stop])]
      exact ofCut_eq_ofToken unnamed
  · intro goesOn
    rw [next] at goesOn
    rw [cut]
    cases rest with
    | nil => contradiction
    | cons d others =>
      have goes : extendsNumber (c :: more) d = true := by simpa using goesOn
      intro same
      have stop := stops_iff.mp same d rfl
      rw [goes] at stop
      contradiction

theorem decided_literal {mark : List Char} {quote : Char} {body : List Char}
    (markEq : mark = [] ∨ mark = ['L']) (quoteEq : quote = '"' ∨ quote = '\'')
    (whole : ∀ rest, literalTail quote (body ++ rest) = { extent := body, rest := rest })
    (rest : List Char) :
    Decided (if quote = '"' then .string else .constant) (mark ++ quote :: body) rest := by
  have noWide : opensWide (quote :: body) = false := by
    rcases quoteEq with rfl | rfl <;> exact opensWide_of_not_upper (by decide) body
  have noNumber : startsNumber (quote :: body) = false := by
    rcases quoteEq with rfl | rfl <;> simp [startsNumber_cons] <;> decide
  have next (c : Char) : runsOn (mark ++ quote :: body) c = false := by
    rcases markEq with rfl | rfl
    · have lower : isUpper quote = false := by
        rcases quoteEq with rfl | rfl <;> decide
      have noLetter : (isLetter quote || quote = '_') = false := by
        rcases quoteEq with rfl | rfl <;> decide
      simp [runsOn, noWide, noNumber, lower, noLetter, quoteEq]
    · rcases quoteEq with rfl | rfl <;> simp [runsOn, opensWide]
  have cut : ofText (mark ++ quote :: body ++ rest) = literal mark quote (body ++ rest) := by
    rcases markEq with rfl | rfl
    · exact ofText_quote quoteEq _
    · exact ofText_wide quoteEq _
  have unnamed : named? (mark ++ quote :: body) = none := by
    rcases markEq with rfl | rfl
    · exact named?_eq_none body (isMark_of_quote quoteEq)
    · exact named?_eq_none (quote :: body) (by decide)
  apply decided_intro
  · intro _
    rw [cut, literal, whole rest]
    exact ofCut_eq_ofToken unnamed
  · intro goesOn
    cases rest with
    | nil => contradiction
    | cons c more => simp [next c] at goesOn

/-- An operator that is a beginning of a longer one has an operator one character longer beside
it. -/
theorem exists_longer {operator other : Operator} (member : operator ∈ table)
    (otherMember : other ∈ table) {rest : List Char}
    (begins : other.spelling <+: operator.spelling ++ rest)
    (longer : operator.spelling.length < other.spelling.length) :
    ∃ c more, rest = c :: more ∧ (named? (operator.spelling ++ [c])).isSome := by
  have short := length_spelling_le otherMember
  have nonempty := List.length_pos_iff.mpr (spelling_ne_nil member)
  have enough := begins.length_le
  rw [List.length_append] at enough
  cases rest with
  | nil => exact absurd enough (Nat.not_le_of_lt longer)
  | cons c more =>
    refine ⟨c, more, rfl, ?_⟩
    have taken : other.spelling.take (operator.spelling.length + 1) = operator.spelling ++ [c] := by
      rw [List.prefix_iff_eq_take.mp begins, List.take_take, Nat.min_eq_left longer,
        List.append_cons]
      exact List.take_left' (by simp)
    by_cases next : other.spelling.length = operator.spelling.length + 1
    · rw [← taken, ← next, List.take_length, named?_spelling otherMember]
      rfl
    · have two : operator.spelling.length + 1 = 2 := by omega
      obtain ⟨shorter, shorterMember, spelled⟩ := exists_spelling_take_two otherMember (by omega)
      rw [← taken, two, ← spelled, named?_spelling shorterMember]
      rfl

/-- Only two operators may be the beginning of something else than an operator. -/
theorem runsOn_spelling {operator : Operator} (member : operator ∈ table) (c : Char) :
    runsOn operator.spelling c =
      ((operator.spelling = ['.'] && isDigit c) ||
        (operator.spelling = ['/'] && (c = '*' || c = '/')) ||
          (named? (operator.spelling ++ [c])).isSome) := by
  have nonempty := spelling_ne_nil member
  have marks {d : Char} (inside : d ∈ operator.spelling) :=
    (isMark_of_mem_spelling member inside).1
  cases spelled : operator.spelling with
  | nil => exact absurd spelled nonempty
  | cons first more =>
    rw [spelled] at marks
    have mark := marks (d := first) (by simp)
    have noNumber : startsNumber (first :: more) = false := by
      rw [startsNumber_cons, isDigit_of_isMark mark]
      cases more with
      | nil => simp
      | cons d others => simp [isDigit_of_isMark (marks (d := d) (by simp))]
    simp only [isMark, Bool.and_eq_true, Bool.not_eq_true', decide_eq_true_eq] at mark
    obtain ⟨⟨⟨⟨⟨lower, noLetter⟩, _⟩, noDouble⟩, noSingle⟩, _⟩ := mark
    simp only [runsOn, opensWide_of_not_upper lower, lower, noLetter, noNumber, noDouble, noSingle]
    simp

/-- The text goes to the scanner of operators. -/
theorem ofText_spelling {operator : Operator} (member : operator ∈ table) (rest : List Char)
    (noPoint : (operator.spelling = ['.'] && rest.head?.any isDigit) = false)
    (noSlash : (operator.spelling = ['/'] && rest.head?.any fun c => c = '*' || c = '/') = false) :
    ∃ c more, operator.spelling ++ rest = c :: more ∧
      ofText (operator.spelling ++ rest) = Scan.operator c more := by
  have nonempty := spelling_ne_nil member
  have marks {d : Char} (inside : d ∈ operator.spelling) :=
    (isMark_of_mem_spelling member inside).1
  have noComments : ∀ entry ∈ table, opensComment entry.spelling = false := by decide +kernel
  have noComment := noComments operator member
  cases spelled : operator.spelling with
  | nil => exact absurd spelled nonempty
  | cons c more =>
    rw [spelled] at marks noPoint noSlash noComment
    have mark := marks (d := c) (by simp)
    refine ⟨c, more ++ rest, rfl, ofText_operator mark ?_ ?_⟩
    · rw [startsNumber_cons, isDigit_of_isMark mark]
      cases more with
      | nil => simpa using noPoint
      | cons d others => simp [isDigit_of_isMark (marks (d := d) (by simp))]
    · cases more with
      | nil =>
        cases rest with
        | nil => simp [opensComment]
        | cons d others => simpa [opensComment] using noSlash
      | cons d others => simpa [opensComment] using noComment

/-- A longer operator is preferred. -/
theorem extent_operator_ne {operator longer : Operator} (longerMember : longer ∈ table)
    {c : Char} {rest : List Char} (begins : longer.spelling <+: c :: rest)
    (exceeds : operator.spelling.length < longer.spelling.length) :
    (Scan.operator c rest).extent ≠ operator.spelling := by
  unfold Scan.operator
  cases found : longest? (c :: rest) with
  | none => exact absurd begins (longest?_eq_none_iff.mp found longer longerMember)
  | some best =>
    have atLeast := (longest?_eq_some_iff.mp found).2.2 longer longerMember begins
    intro same
    have lengths := congrArg List.length same
    simp only [ofCut] at lengths
    omega

theorem extent_comment_ne {c : Char} (mark : c = '*' ∨ c = '/') (rest : List Char) :
    (ofText ('/' :: c :: rest)).extent ≠ ['/'] := by
  rcases mark with rfl | rfl
  · rw [ofText_blockComment]
    simp [blockComment, commentCut, ofCut]
  · rw [ofText_lineComment]
    simp [lineComment, Cut.span, ofCut]

theorem extent_pointNumber_ne {d : Char} (digit : isDigit d = true) (rest : List Char) :
    (ofText ('.' :: d :: rest)).extent ≠ ['.'] := by
  have starts : startsNumber ('.' :: d :: rest) = true := by simpa [startsNumber] using digit
  rw [ofText_number (by decide) (by decide) starts]
  have goesOn : extendsNumber ['.'] d = true := by
    simp [extendsNumber, isNumberChar_of_isDigit digit]
  have first : numberCut ('.' :: d :: rest) = numberFrom ['.'] (d :: rest) := by
    rw [numberCut, numberFrom, if_pos (by decide)]
    rfl
  intro same
  rw [first] at same
  have stop := (extent_numberFrom_eq_iff ['.'] (d :: rest)).mp same d rfl
  rw [goesOn] at stop
  contradiction

/-- An operator that runs on is not cut off. -/
theorem extent_ne_spelling {operator : Operator} (member : operator ∈ table) {rest : List Char}
    (goesOn : rest.head?.any (runsOn operator.spelling) = true) :
    (ofText (operator.spelling ++ rest)).extent ≠ operator.spelling := by
  cases rest with
  | nil => contradiction
  | cons d others =>
    have goes : runsOn operator.spelling d = true := by simpa using goesOn
    rw [runsOn_spelling member] at goes
    by_cases point : (operator.spelling = ['.'] && isDigit d) = true
    · rw [Bool.and_eq_true, decide_eq_true_eq] at point
      rw [point.1]
      exact extent_pointNumber_ne point.2 others
    by_cases slash : (operator.spelling = ['/'] && (d = '*' || d = '/')) = true
    · rw [Bool.and_eq_true, decide_eq_true_eq] at slash
      rw [slash.1]
      exact extent_comment_ne (by simpa using slash.2) others
    rw [Bool.not_eq_true] at point slash
    rw [point, slash, Bool.false_or, Bool.false_or] at goes
    obtain ⟨longer, found⟩ := Option.isSome_iff_exists.mp goes
    obtain ⟨longerMember, spelled⟩ := named?_spec found
    obtain ⟨c, more, split, cut⟩ := ofText_spelling member (d :: others)
      (by simpa using point) (by simpa using slash)
    rw [cut]
    apply extent_operator_ne longerMember
    · rw [← split, spelled]
      exact ⟨others, by simp⟩
    · rw [spelled, List.length_append]
      exact Nat.lt_succ_self _

theorem decided_operator {operator : Operator} (member : operator ∈ table) (rest : List Char) :
    Decided operator.category operator.spelling rest := by
  apply decided_intro
  · intro stops
    have head (c : Char) (more : List Char) (split : rest = c :: more) :
        runsOn operator.spelling c = false := by
      simpa [split] using stops
    obtain ⟨c, more, split, cut⟩ := ofText_spelling member rest
      (by
        cases rest with
        | nil => simp
        | cons d others =>
          have plain := head d others rfl
          rw [runsOn_spelling member, Bool.or_eq_false_iff, Bool.or_eq_false_iff] at plain
          exact plain.1.1)
      (by
        cases rest with
        | nil => simp
        | cons d others =>
          have plain := head d others rfl
          rw [runsOn_spelling member, Bool.or_eq_false_iff, Bool.or_eq_false_iff] at plain
          exact plain.1.2)
    have found : longest? (c :: more) = some operator := by
      rw [← split, longest?_eq_some_iff]
      refine ⟨member, List.prefix_append _ _, ?_⟩
      intro other otherMember begins
      apply Nat.le_of_not_lt
      intro longer
      obtain ⟨d, others, more, named⟩ := exists_longer member otherMember begins longer
      have plain := head d others more
      rw [runsOn_spelling member, named, Bool.or_true] at plain
      contradiction
    rw [cut, Scan.operator, found]
    simp only [← split, List.drop_left]
    rw [ofToken, named?_spelling member]
    rfl
  · exact extent_ne_spelling member

theorem decided_foreign {c : Char} (mark : isMark c = true)
    (noOperator : ∀ operator ∈ table, operator.spelling.head? ≠ some c) (rest : List Char) :
    Decided .foreign [c] rest := by
  have differs {d : Char} (operator : Operator) (member : operator ∈ table)
      (spelled : operator.spelling.head? = some d) : c ≠ d := by
    rintro rfl
    exact noOperator operator member spelled
  have noPoint : c ≠ '.' := differs ⟨['.'], .member, .both⟩ (by decide) rfl
  have noSlash : c ≠ '/' := differs ⟨['/'], .binary, .free⟩ (by decide) rfl
  have none_of_head (text : List Char) : longest? (c :: text) = none := by
    rw [longest?_eq_none_iff]
    intro operator member begins
    cases spelled : operator.spelling with
    | nil => exact spelling_ne_nil member spelled
    | cons d others =>
      rw [spelled] at begins
      have first := (List.cons_prefix_cons.mp begins).1
      exact noOperator operator member (by rw [spelled, first]; rfl)
  have unnamed (text : List Char) : named? (c :: text) = none := by
    cases found : named? (c :: text) with
    | none => rfl
    | some operator =>
      obtain ⟨member, spelled⟩ := named?_spec found
      exact absurd (by rw [spelled]; rfl) (noOperator operator member)
  apply decided_intro
  · intro _
    have noNumber : startsNumber (c :: rest) = false := by
      simp [startsNumber_cons, isDigit_of_isMark mark, noPoint]
    have noComment : opensComment (c :: rest) = false := by simp [opensComment, noSlash]
    rw [List.singleton_append, ofText_operator mark noNumber noComment, Scan.operator,
      none_of_head]
    exact ofCut_eq_ofToken (unnamed [])
  · intro goesOn
    have next (d : Char) : runsOn [c] d = false := by
      have noNumber : startsNumber [c] = false := by
        simp [startsNumber_cons, isDigit_of_isMark mark]
      simp only [isMark, Bool.and_eq_true, Bool.not_eq_true', decide_eq_true_eq] at mark
      obtain ⟨⟨⟨⟨⟨lower, noLetter⟩, _⟩, noDouble⟩, noSingle⟩, _⟩ := mark
      simp only [runsOn, opensWide_of_not_upper lower, lower, noLetter, noNumber, noDouble,
        noSingle]
      simp [noPoint, noSlash, unnamed]
    cases rest with
    | nil => contradiction
    | cons d others => simp [next d] at goesOn

end Scan

namespace Spelling

open Scan

variable {category : Category} {lexeme : List Char}

/-- The next character decides about every lexeme. -/
theorem decided (spelling : Spelling category lexeme) (rest : List Char) :
    Decided category lexeme rest := by
  cases spelling with
  | upper upper inside => exact decided_upper upper inside rest
  | word lower letter inside => exact decided_word lower letter inside rest
  | number lower noLetter starts whole => exact decided_number lower noLetter starts whole rest
  | literal markEq quoteEq whole _ => exact decided_literal markEq quoteEq whole rest
  | operator member => exact decided_operator member rest
  | foreign mark _ noOperator => exact decided_foreign mark noOperator rest

/-- A lexeme that reads apart from what follows is cut off as the token that it is by itself. -/
theorem ofText_append (spelling : Spelling category lexeme) {rest : List Char}
    (apart : ReadsApart lexeme rest) :
    ofText (lexeme ++ rest) = ofToken category lexeme rest := by
  have decided := spelling.decided rest
  rwa [Decided, if_pos apart] at decided

/-- A lexeme that runs on is not cut off. -/
theorem extent_ofText_append_ne (spelling : Spelling category lexeme) {rest : List Char}
    (joined : ¬ ReadsApart lexeme rest) : (ofText (lexeme ++ rest)).extent ≠ lexeme := by
  have decided := spelling.decided rest
  rwa [Decided, if_neg joined] at decided

end Spelling

namespace Scan

/-! ## Blanks -/

/-- No lexeme runs on into a blank. -/
theorem runsOn_of_isBlank (lexeme : List Char) {c : Char} (blank : isBlank c = true) :
    runsOn lexeme c = false := by
  have noWord := isWordChar_of_isBlank blank
  have noDigit := isDigit_of_isBlank blank
  have noExtension := extendsNumber_of_isBlank lexeme blank
  have noDouble : c ≠ '"' := ne_of_isBlank blank (by decide)
  have noSingle : c ≠ '\'' := ne_of_isBlank blank (by decide)
  have noStar : c ≠ '*' := ne_of_isBlank blank (by decide)
  have noSlash : c ≠ '/' := ne_of_isBlank blank (by decide)
  have unnamed : named? (lexeme ++ [c]) = none := by
    cases found : named? (lexeme ++ [c]) with
    | none => rfl
    | some operator =>
      obtain ⟨member, spelled⟩ := named?_spec found
      have ink := (isMark_of_mem_spelling member (c := c) (by simp [spelled])).2
      rw [blank] at ink
      contradiction
  unfold runsOn
  split
  · rfl
  · rw [unnamed]
    simp [noWord, noDigit, noExtension, noDouble, noSingle, noStar, noSlash]

@[simp]
theorem readsApart_nil (lexeme : List Char) : ReadsApart lexeme [] :=
  rfl

theorem readsApart_cons_of_isBlank (lexeme : List Char) {c : Char} (blank : isBlank c = true)
    (rest : List Char) : ReadsApart lexeme (c :: rest) := by
  simpa [ReadsApart] using runsOn_of_isBlank lexeme blank

/-- Only the first character of what follows counts. -/
theorem readsApart_congr (lexeme : List Char) {first second : List Char}
    (same : first.head? = second.head?) :
    ReadsApart lexeme first ↔ ReadsApart lexeme second := by
  unfold ReadsApart
  rw [same]

end Scan

end CListing
