import CListing.Proofs.Scan.Spelling

/-!
# The pieces that a scan yields

A text begins with a comment, a directive or a token. A token is its own text, its spacing comes
from its spelling, and if it is closed its text is a spelling of its category. Every piece takes up
a character, with one exception: a character that is upper case and neither a letter nor a number
begins a word that it does not belong to.
-/

namespace CListing

open Unicode Operator

namespace Category

/-- Pieces of these categories are tokens with a text. -/
def isToken (category : Category) : Bool :=
  category ≠ .comment && category ≠ .directive && category ≠ .endOfFile

theorem isToken_wordCategory (word : List Char) : (wordCategory word).isToken = true := by
  have listed : ∀ entry ∈ keywords, entry.2.isToken = true := by decide
  unfold wordCategory
  split
  · rename_i entry found
    exact listed entry (List.mem_of_find?_eq_some found)
  · rfl

theorem isToken_of_mem_table {operator : Operator} (member : operator ∈ Operator.table) :
    operator.category.isToken = true := by
  have listed : ∀ entry ∈ Operator.table, entry.category.isToken = true := by decide
  exact listed operator member

end Category

theorem Spelling.isToken {category : Category} {lexeme : List Char}
    (spelling : Spelling category lexeme) : category.isToken = true := by
  cases spelling with
  | upper _ _ => rfl
  | word _ _ _ => exact Category.isToken_wordCategory _
  | number _ _ _ _ => rfl
  | literal _ _ _ _ => split <;> rfl
  | operator member => exact Category.isToken_of_mem_table member
  | foreign _ _ _ => rfl

namespace Scan

/-- The piece is a token: its text is what it takes up, and its spelling fixes its spacing. -/
structure IsToken (scan : Scan) : Prop where
  category : scan.category.isToken = true
  lexeme : scan.lexeme = scan.extent
  spacing : scan.spacing? = (named? scan.lexeme).map (·.spacing)

theorem isToken_ofCut {category : Category} (token : category.isToken = true) {cut : Cut}
    (unnamed : named? cut.extent = none) : IsToken (ofCut category cut) :=
  ⟨token, rfl, by rw [show (ofCut category cut).lexeme = cut.extent from rfl, unnamed]; rfl⟩

/-- No operator is empty. -/
theorem named?_nil : named? [] = none := by
  decide

theorem named?_takeWhile {c : Char} (noMark : isMark c = false) (p : Char → Bool)
    (rest : List Char) : named? ((c :: rest).takeWhile p) = none := by
  by_cases inside : p c = true
  · rw [List.takeWhile_cons_of_pos inside]
    exact named?_eq_none _ noMark
  · rw [List.takeWhile_cons_of_neg inside]
    exact named?_nil

theorem isToken_literal {mark : List Char} {quote : Char}
    (markEq : mark = [] ∨ mark = ['L']) (quoteEq : quote = '"' ∨ quote = '\'')
    (rest : List Char) : IsToken (literal mark quote rest) := by
  apply isToken_ofCut
  · split <;> rfl
  · rcases markEq with rfl | rfl
    · exact named?_eq_none _ (isMark_of_quote quoteEq)
    · exact named?_eq_none _ (by decide)

/-- What a text begins with. -/
inductive Head : List Char → Scan → Prop
  | ending : Head [] ending
  | comment {c : Char} {rest : List Char} {scan : Scan} (opens : opensComment (c :: rest) = true)
      (category : scan.category = .comment) : Head (c :: rest) scan
  | directive {rest : List Char} : Head ('#' :: rest) (directive ('#' :: rest))
  | token {c : Char} {rest : List Char} {scan : Scan} (noComment : opensComment (c :: rest) = false)
      (noDirective : c ≠ '#') (token : scan.IsToken) : Head (c :: rest) scan

/-- A text that begins a word, a number or a literal begins no comment. -/
theorem opensComment_of_ne {c : Char} (noSlash : c ≠ '/') (rest : List Char) :
    opensComment (c :: rest) = false := by
  simp [opensComment, noSlash]

/-- A condition on the first character that neither a slash nor a number sign meets. -/
theorem Head.ofFirst {c : Char} {rest : List Char} {scan : Scan} (opens : Char → Bool)
    (first : opens c = true) (noSlash : opens '/' = false) (noSign : opens '#' = false)
    (token : scan.IsToken) : Head (c :: rest) scan := by
  apply Head.token _ _ token
  · apply opensComment_of_ne
    rintro rfl
    rw [first] at noSlash
    contradiction
  · rintro rfl
    rw [first] at noSign
    contradiction

theorem isToken_operator {c : Char} (rest : List Char) : IsToken (Scan.operator c rest) := by
  unfold Scan.operator
  cases found : longest? (c :: rest) with
  | some best =>
    have member := (longest?_eq_some_iff.mp found).1
    exact ⟨Category.isToken_of_mem_table member, rfl, by simp [ofCut, named?_spelling member]⟩
  | none =>
    apply isToken_ofCut rfl
    cases named : named? [c] with
    | none => rfl
    | some operator =>
      obtain ⟨member, spelled⟩ := named?_spec named
      exact absurd (by rw [spelled]; simp) (longest?_eq_none_iff.mp found operator member)

/-- Every text begins with a comment, a directive or a token, unless it is empty. -/
theorem head (text : List Char) : Head text (ofText text) := by
  cases text with
  | nil => exact Head.ending
  | cons c rest =>
    cases branch c rest with
    | @wide quote more mark =>
      rw [ofText_wide mark]
      exact Head.token (opensComment_of_ne (by decide) _) (by decide)
        (isToken_literal (Or.inr rfl) mark more)
    | upper narrow upper =>
      rw [ofText_upper narrow upper]
      exact Head.ofFirst isUpper upper (by decide) (by decide)
        (isToken_ofCut rfl (named?_takeWhile (isMark_of_isUpper upper) _ rest))
    | word lower letter =>
      rw [ofText_word lower letter]
      exact Head.ofFirst (fun d => isLetter d || d = '_') letter (by decide) (by decide)
        (isToken_ofCut (Category.isToken_wordCategory _)
          (named?_takeWhile (isMark_of_letter letter) _ rest))
    | number lower noLetter starts =>
      rw [ofText_number lower noLetter starts]
      exact Head.ofFirst (fun d => startsNumber (d :: rest)) starts
        (startsNumber_cons '/' rest) (startsNumber_cons '#' rest)
        (isToken_ofCut rfl (named?_eq_none_of_startsNumber (startsNumber_extent starts)))
    | quote mark =>
      rw [ofText_quote mark]
      apply Head.token
      · apply opensComment_of_ne
        rcases mark with rfl | rfl <;> decide
      · rcases mark with rfl | rfl <;> decide
      · exact isToken_literal (Or.inl rfl) mark rest
    | directive =>
      rw [ofText_directive]
      exact Head.directive
    | comment opens =>
      obtain ⟨more, begins⟩ := exists_of_opensComment opens
      apply Head.comment opens
      rcases begins with block | line
      · rw [block, ofText_blockComment]
        rfl
      · rw [line, ofText_lineComment]
        rfl
    | operator mark noNumber noComment =>
      rw [ofText_operator mark noNumber noComment]
      apply Head.token noComment
      · rintro rfl
        exact absurd mark (by decide)
      · exact isToken_operator rest

theorem category_of_opensComment {text : List Char} (opens : opensComment text = true) :
    (ofText text).category = .comment := by
  cases head text with
  | ending => contradiction
  | comment _ category => exact category
  | directive => contradiction
  | token noComment _ _ =>
    rw [opens] at noComment
    contradiction

theorem opensComment_of_category {text : List Char} (category : (ofText text).category = .comment) :
    opensComment text = true := by
  have found := head text
  generalize ofText text = scan at category found
  cases found with
  | ending => contradiction
  | comment opens _ => exact opens
  | directive => contradiction
  | token _ _ token =>
    have isToken := token.category
    rw [category] at isToken
    contradiction

/-- A text that begins with neither a comment nor a directive begins with a token. -/
theorem isToken_first {c : Char} {rest : List Char} (noComment : opensComment (c :: rest) = false)
    (noDirective : c ≠ '#') : (ofText (c :: rest)).IsToken := by
  have found := head (c :: rest)
  generalize ofText (c :: rest) = scan at found
  cases found with
  | comment opens _ =>
    rw [opens] at noComment
    contradiction
  | directive => contradiction
  | token _ _ token => exact token

/-- A piece that is neither a comment nor a directive is a token or the end. -/
theorem isToken_of_category {text : List Char} (notEnd : (ofText text).category ≠ .endOfFile)
    (noComment : (ofText text).category ≠ .comment)
    (noDirective : (ofText text).category ≠ .directive) : (ofText text).IsToken := by
  have found := head text
  generalize ofText text = scan at *
  cases found with
  | ending => contradiction
  | comment _ category => contradiction
  | directive => contradiction
  | token _ _ token => exact token

/-! ## Progress -/

/-- A text that begins so has an empty piece at its head. -/
def AtBarrier (text : List Char) : Prop :=
  text.head?.any (fun c => isUpper c && !isAlphanumeric c) = true

instance (text : List Char) : Decidable (AtBarrier text) :=
  inferInstanceAs (Decidable (_ = _))

/-- A letter or an underscore belongs to its word. -/
theorem isWordChar_of_letter {c : Char} (letter : (isLetter c || c = '_') = true) :
    isWordChar c = true := by
  simp only [Bool.or_eq_true, decide_eq_true_eq] at letter
  rcases letter with letter | rfl
  · simp [isWordChar, isAlphanumeric, letter]
  · rfl

theorem extent_directive_ne_nil (rest : List Char) : (directive ('#' :: rest)).extent ≠ [] := by
  simp [directive, directiveCut, directiveFrom, ofCut]

/-- Every piece takes up a character, except at a barrier. -/
theorem extent_ne_nil {c : Char} {rest : List Char} (free : ¬ AtBarrier (c :: rest)) :
    (ofText (c :: rest)).extent ≠ [] := by
  cases branch c rest with
  | @wide quote more mark =>
    rw [ofText_wide mark]
    simp [literal, ofCut]
  | upper narrow upper =>
    have inside : isWordChar c = true := by
      simp only [AtBarrier, List.head?_cons, Option.any_some, upper, Bool.true_and,
        Bool.not_eq_true', Bool.not_eq_false] at free
      simp [isWordChar, free]
    rw [ofText_upper narrow upper]
    simp [word, Cut.span, ofCut, inside]
  | word lower letter =>
    rw [ofText_word lower letter]
    simp [word, Cut.span, ofCut, isWordChar_of_letter letter]
  | number lower noLetter starts =>
    rw [ofText_number lower noLetter starts]
    exact extent_numberCut_ne_nil starts
  | quote mark =>
    rw [ofText_quote mark]
    simp [literal, ofCut]
  | directive =>
    rw [ofText_directive]
    exact extent_directive_ne_nil rest
  | comment opens =>
    obtain ⟨more, begins⟩ := exists_of_opensComment opens
    rcases begins with block | line
    · rw [block, ofText_blockComment]
      simp [blockComment, commentCut, ofCut]
    · rw [line, ofText_lineComment]
      simp [lineComment, Cut.span, ofCut]
  | operator mark noNumber noComment =>
    rw [ofText_operator mark noNumber noComment]
    unfold Scan.operator
    cases found : longest? (c :: rest) with
    | some best => exact spelling_ne_nil (longest?_eq_some_iff.mp found).1
    | none => simp [ofCut]

/-- What a text begins with begins as the text does. -/
theorem exists_extent_eq_cons {c : Char} {rest : List Char} (free : ¬ AtBarrier (c :: rest)) :
    ∃ more, (ofText (c :: rest)).extent = c :: more := by
  have whole := text_ofText (c :: rest)
  obtain ⟨d, more, extent⟩ := List.exists_cons_of_ne_nil (extent_ne_nil free)
  rw [Scan.text, extent] at whole
  obtain rfl : d = c := (List.cons.inj whole).1
  exact ⟨more, extent⟩

/-- At a barrier the piece is an empty word. -/
theorem ofText_of_atBarrier {text : List Char} (barrier : AtBarrier text) :
    (ofText text).category = .upperCaseIdentifier ∧ (ofText text).extent = [] := by
  cases text with
  | nil => contradiction
  | cons c rest =>
    obtain ⟨upper, alone⟩ : isUpper c = true ∧ isAlphanumeric c = false := by
      simpa [AtBarrier] using barrier
    have notUnderscore : c ≠ '_' := by
      rintro rfl
      exact absurd upper (by decide)
    have narrow : opensWide (c :: rest) = false := by
      have notMark : c ≠ 'L' := by
        rintro rfl
        exact absurd alone (by decide)
      simp [opensWide, notMark]
    have outside : isWordChar c = false := by simp [isWordChar, alone, notUnderscore]
    rw [ofText_upper narrow upper]
    exact ⟨rfl, by simp [word, Cut.span, ofCut, outside]⟩

/-- The piece at a barrier takes up nothing. -/
theorem rest_of_atBarrier {text : List Char} (barrier : AtBarrier text) :
    (ofText text).rest = text := by
  have whole := text_ofText text
  rwa [Scan.text, (ofText_of_atBarrier barrier).2, List.nil_append] at whole

/-! ## Closed tokens -/

theorem span_isWordChar {c : Char} {rest : List Char}
    (nonempty : (Cut.span isWordChar (c :: rest)).extent ≠ []) :
    (Cut.span isWordChar (c :: rest)).extent = c :: rest.takeWhile isWordChar ∧
      ∀ d ∈ c :: rest.takeWhile isWordChar, isWordChar d = true := by
  by_cases first : isWordChar c = true
  · refine ⟨List.takeWhile_cons_of_pos first, ?_⟩
    intro d inside
    rcases List.mem_cons.mp inside with rfl | later
    · exact first
    · exact List.all_eq_true.mp List.all_takeWhile d later
  · exact absurd (List.takeWhile_cons_of_neg first) nonempty

theorem spelling_number {c : Char} {rest : List Char} (lower : isUpper c = false)
    (noLetter : (isLetter c || c = '_') = false) (starts : startsNumber (c :: rest) = true) :
    Spelling .constant (numberCut (c :: rest)).extent := by
  obtain ⟨more, others, split, cut, whole, _⟩ := numberFrom_spec [] (c :: rest)
  have begins := startsNumber_extent starts
  rw [numberCut, cut, List.nil_append] at begins ⊢
  cases more with
  | nil => contradiction
  | cons d inner =>
    obtain rfl : c = d := (List.cons.inj split).1
    exact Spelling.number lower noLetter begins whole

theorem spelling_operator {c : Char} (rest : List Char) (mark : isMark c = true)
    (ink : isBlank c = false) :
    Spelling (Scan.operator c rest).category (Scan.operator c rest).extent := by
  unfold Scan.operator
  cases found : longest? (c :: rest) with
  | some best => exact Spelling.operator (longest?_eq_some_iff.mp found).1
  | none =>
    apply Spelling.foreign mark ink
    -- The first character of an operator is an operator itself, which would be the longest here.
    intro operator member first
    obtain ⟨single, singleMember, spelled⟩ := exists_spelling_take_one member
    have alone : single.spelling = [c] := by
      rw [spelled, List.take_one, first]
      rfl
    exact longest?_eq_none_iff.mp found single singleMember (by simp [alone])

/-- The text of a closed token is a spelling of its category. -/
theorem spelling_extent {c : Char} {rest : List Char} (free : ¬ AtBarrier (c :: rest))
    (ink : isBlank c = false) (token : (ofText (c :: rest)).category.isToken = true)
    (closed : (ofText (c :: rest)).closed = true) :
    Spelling (ofText (c :: rest)).category (ofText (c :: rest)).extent := by
  have nonempty := extent_ne_nil free
  cases branch c rest with
  | @wide quote more mark =>
    rw [ofText_wide mark] at closed ⊢
    have different : quote ≠ '\\' := by rcases mark with rfl | rfl <;> decide
    exact Spelling.literal (Or.inr rfl) mark (literalTail_extent_append different closed)
      (getLast?_extent_literalTail closed)
  | upper narrow upper =>
    rw [ofText_upper narrow upper] at nonempty ⊢
    obtain ⟨begins, inside⟩ := span_isWordChar nonempty
    rw [show (word (some .upperCaseIdentifier) (c :: rest)).extent = _ from begins]
    exact Spelling.upper upper inside
  | word lower letter =>
    rw [ofText_word lower letter] at nonempty ⊢
    obtain ⟨begins, inside⟩ := span_isWordChar nonempty
    have spelling := Spelling.word lower letter inside
    rwa [← begins] at spelling
  | number lower noLetter starts =>
    rw [ofText_number lower noLetter starts]
    exact spelling_number lower noLetter starts
  | quote mark =>
    rw [ofText_quote mark] at closed ⊢
    have different : c ≠ '\\' := by rcases mark with rfl | rfl <;> decide
    exact Spelling.literal (Or.inl rfl) mark (literalTail_extent_append different closed)
      (getLast?_extent_literalTail closed)
  | directive =>
    rw [ofText_directive] at token
    contradiction
  | comment opens =>
    rw [category_of_opensComment opens] at token
    contradiction
  | operator mark noNumber noComment =>
    rw [ofText_operator mark noNumber noComment]
    exact spelling_operator rest mark ink

end Scan

namespace Spelling

variable {category : Category} {lexeme : List Char}

/-- Only literals contain blanks. -/
theorem isBlank_of_mem (spelling : Spelling category lexeme) :
    (∃ mark quote body, lexeme = mark ++ quote :: body ∧ (mark = [] ∨ mark = ['L']) ∧
        (quote = '"' ∨ quote = '\'') ∧ body.getLast? = some quote ∧
        ∀ rest, literalTail quote (body ++ rest) = { extent := body, rest := rest }) ∨
      lexeme ≠ [] ∧ ∀ c ∈ lexeme, isBlank c = false := by
  have wordInk (c : Char) (inside : isWordChar c = true) : isBlank c = false := by
    cases blank : isBlank c with
    | false => rfl
    | true =>
      rw [isWordChar_of_isBlank blank] at inside
      contradiction
  cases spelling with
  | upper _ inside =>
    right
    exact ⟨by simp, fun c member => wordInk c (inside c member)⟩
  | word _ _ inside =>
    right
    exact ⟨by simp, fun c member => wordInk c (inside c member)⟩
  | number _ _ _ whole =>
    right
    exact ⟨by simp, fun c member => @isBlank_of_mem_numberFrom [] _ whole _ member⟩
  | @literal mark quote body markEq quoteEq whole last =>
    left
    exact ⟨mark, quote, body, rfl, markEq, quoteEq, last, whole⟩
  | operator member =>
    right
    exact ⟨spelling_ne_nil member, fun c inside => (isMark_of_mem_spelling member inside).2⟩
  | foreign _ ink _ =>
    right
    exact ⟨by simp, by simpa using ink⟩

/-- A lexeme neither begins nor ends with a blank, and it is not empty. -/
theorem ink_ends (spelling : Spelling category lexeme) :
    lexeme ≠ [] ∧ lexeme.head?.any isBlank = false ∧ lexeme.getLast?.any isBlank = false := by
  rcases spelling.isBlank_of_mem with ⟨mark, quote, body, rfl, markEq, quoteEq, last, _⟩ | ⟨ne, ink⟩
  · have quoteInk : isBlank quote = false := by
      rcases quoteEq with rfl | rfl <;> decide
    have markInk : isBlank 'L' = false := by decide
    refine ⟨by simp, ?_, ?_⟩
    · rcases markEq with rfl | rfl
      · exact quoteInk
      · exact markInk
    · rw [List.getLast?_append, List.getLast?_cons, last]
      exact quoteInk
  · refine ⟨ne, ?_, ?_⟩
    · cases head : lexeme.head? with
      | none => rfl
      | some c => exact ink c (List.mem_of_head? head)
    · cases final : lexeme.getLast? with
      | none => rfl
      | some c => exact ink c (List.mem_of_getLast? final)

end Spelling

end CListing
