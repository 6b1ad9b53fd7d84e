import CListing.Proofs.Formatter.Braces

/-!
# Declarations and headers at file level

What may stand in a declaration and in the header of a function, told by the tokens alone. At file
level a header is told from a declaration at a closing parenthesis outside of braces, by the one
token behind it. In declarators and parameter lists no closing parenthesis misleads, since behind it
stand a bound, a parameter list, a comma or another closing parenthesis. Inside the bounds of arrays
there may be one that does.
-/

namespace CListing

namespace Category

/-- A token of the category may stand among specifiers, pointers and names. -/
def inSpecifiers : Category → Bool
  | leftParen | rightParen | leftBracket | rightBracket | leftBrace | rightBrace | semicolon
  | comma | assignment => false
  | _ => true

/-- A token of the category may stand in the bound of an array without parentheses. -/
def inBound : Category → Bool
  | leftParen | rightParen | leftBrace | rightBrace | semicolon | assignment => false
  | _ => true

/-- A token of the category may stand behind the header of a function. It begins the body or a
declaration of a parameter in the old style. -/
def followsHeader (category : Category) : Bool :=
  category = leftBrace || category.startsDeclaration || category.isName

theorem not_goesOnWithDeclaration_of_followsHeader {category : Category}
    (follows : category.followsHeader = true) : category.goesOnWithDeclaration = false := by
  cases category <;> first | rfl | contradiction

theorem braces?_of_ne {category : Category} (noOpen : category ≠ .leftBrace)
    (noClose : category ≠ .rightBrace) (opened : Nat) : category.braces? opened = some opened := by
  cases category <;> first | rfl | contradiction

end Category

/-! ## Declarations -/

/-- The tokens are read as an expression before the terminator: parentheses and braces are balanced,
and the terminator stands in parentheses only. Before another terminator a closing parenthesis of
an outer level is a token as any other. -/
inductive Passable : Category → List Token → Prop
  | nil {terminator : Category} : Passable terminator []
  | token {terminator : Category} {token : Token} {tokens : List Token}
      (notLast : token.category ≠ terminator) (noParen : token.category ≠ .leftParen)
      (noOpen : token.category ≠ .leftBrace) (noClose : token.category ≠ .rightBrace)
      (later : Passable terminator tokens) : Passable terminator (token :: tokens)
  | parens {terminator : Category} {opening closing : Token} {inner tokens : List Token}
      (opens : opening.category = .leftParen) (closes : closing.category = .rightParen)
      (inside : Passable .rightParen inner) (later : Passable terminator tokens) :
      Passable terminator (opening :: (inner ++ closing :: tokens))
  | braces {terminator : Category} {opening closing : Token} {inner tokens : List Token}
      (opens : opening.category = .leftBrace) (closes : closing.category = .rightBrace)
      (inside : Passable terminator inner) (later : Passable terminator tokens) :
      Passable terminator (opening :: (inner ++ closing :: tokens))

/-- The tokens stand between the braces of a structure, a union or an enumeration. A value is given
up to the next semicolon or to the end of the body. -/
inductive IsBody : List Token → Prop
  | nil : IsBody []
  | token {token : Token} {tokens : List Token} (noOpen : token.category ≠ .leftBrace)
      (noClose : token.category ≠ .rightBrace) (noValue : token.category ≠ .assignment)
      (later : IsBody tokens) : IsBody (token :: tokens)
  | value {assignment : Token} {value tokens : List Token}
      (assigns : assignment.category = .assignment) (passable : Passable .semicolon value)
      (ends : ∀ token ∈ tokens.head?, token.category = .semicolon) (later : IsBody tokens) :
      IsBody (assignment :: (value ++ tokens))
  | body {opening closing : Token} {inner tokens : List Token}
      (opens : opening.category = .leftBrace) (closes : closing.category = .rightBrace)
      (inside : IsBody inner) (later : IsBody tokens) :
      IsBody (opening :: (inner ++ closing :: tokens))

/-- The tokens are a declaration before its semicolon and before the first value it gives outside of
braces. Parentheses and brackets may stand in it anywhere. -/
inductive IsHead : List Token → Prop
  | nil : IsHead []
  | token {token : Token} {tokens : List Token} (noOpen : token.category ≠ .leftBrace)
      (noClose : token.category ≠ .rightBrace) (noValue : token.category ≠ .assignment)
      (notLast : token.category ≠ .semicolon) (later : IsHead tokens) : IsHead (token :: tokens)
  | body {opening closing : Token} {inner tokens : List Token}
      (opens : opening.category = .leftBrace) (closes : closing.category = .rightBrace)
      (inside : IsBody inner) (later : IsHead tokens) :
      IsHead (opening :: (inner ++ closing :: tokens))

/-- The tokens are what stands in a declaration from its first value on, or none. -/
inductive IsInitializer : List Token → Prop
  | none : IsInitializer []
  | value {assignment : Token} {value : List Token} (assigns : assignment.category = .assignment)
      (passable : Passable .semicolon value) : IsInitializer (assignment :: value)

/-- A declaration at file level. -/
structure FileDeclaration where
  head : List Token
  initializer : List Token
  semicolon : Token
  isHead : IsHead head
  isInitializer : IsInitializer initializer
  ends : semicolon.category = .semicolon

/-- The tokens of the declaration. -/
def FileDeclaration.tokens (declaration : FileDeclaration) : List Token :=
  declaration.head ++ (declaration.initializer ++ [declaration.semicolon])

/-! ## Headers -/

/-- The phrases that declarations and headers are made of. -/
inductive Phrase
  /-- Specifiers, pointers and a name, or no name, with what belongs to it. -/
  | declarator
  /-- The bounds and the parameter lists behind a name or a declarator in parentheses. -/
  | suffixes
  /-- Declarators with commas between them. -/
  | declarators

/-- The tokens are a phrase of the kind. The bounds of arrays are without parentheses and give no
values. -/
inductive Phrase.Spells : Phrase → List Token → Prop
  | token {token : Token} {tokens : List Token} (plain : token.category.inSpecifiers = true)
      (later : declarator.Spells tokens) : declarator.Spells (token :: tokens)
  | body {opening closing : Token} {inner tokens : List Token}
      (opens : opening.category = .leftBrace) (closes : closing.category = .rightBrace)
      (inside : IsBody inner) (later : declarator.Spells tokens) :
      declarator.Spells (opening :: (inner ++ closing :: tokens))
  | parens {opening closing : Token} {inner tokens : List Token}
      (opens : opening.category = .leftParen) (closes : closing.category = .rightParen)
      (inside : declarator.Spells inner) (later : suffixes.Spells tokens) :
      declarator.Spells (opening :: (inner ++ closing :: tokens))
  | ofSuffixes {tokens : List Token} (later : suffixes.Spells tokens) : declarator.Spells tokens
  | nil : suffixes.Spells []
  | bound {opening closing : Token} {inner tokens : List Token}
      (opens : opening.category = .leftBracket) (closes : closing.category = .rightBracket)
      (plain : ∀ token ∈ inner, token.category.inBound = true) (later : suffixes.Spells tokens) :
      suffixes.Spells (opening :: (inner ++ closing :: tokens))
  | parameters {opening closing : Token} {inner tokens : List Token}
      (opens : opening.category = .leftParen) (closes : closing.category = .rightParen)
      (inside : declarators.Spells inner) (later : suffixes.Spells tokens) :
      suffixes.Spells (opening :: (inner ++ closing :: tokens))
  | last {tokens : List Token} (later : declarator.Spells tokens) : declarators.Spells tokens
  | next {comma : Token} {first tokens : List Token} (separates : comma.category = .comma)
      (inside : declarator.Spells first) (later : declarators.Spells tokens) :
      declarators.Spells (first ++ comma :: tokens)

/-- The header of a function, which ends in a parenthesis. -/
structure FunctionHeader where
  front : List Token
  closing : Token
  isHead : IsHead front
  closes : closing.category = .rightParen

/-- The tokens of the header. -/
def FunctionHeader.tokens (header : FunctionHeader) : List Token :=
  header.front ++ [header.closing]

/-! ## Braces -/

section Braces

variable {terminator : Category} {tokens inner more : List Token} {opening closing token : Token}

theorem openBraces?_cons_of_ne (noOpen : token.category ≠ .leftBrace)
    (noClose : token.category ≠ .rightBrace) (opened : Nat) (tokens : List Token) :
    openBraces? opened (token :: tokens) = openBraces? opened tokens := by
  rw [openBraces?, Category.braces?_of_ne noOpen noClose, Option.bind_some]

/-- A balanced part in braces leaves as many open as there were. -/
theorem openBraces?_enclosed (opens : opening.category = .leftBrace)
    (closes : closing.category = .rightBrace) (balanced : openBraces? 0 inner = some 0)
    (opened : Nat) (tokens : List Token) :
    openBraces? opened (opening :: (inner ++ closing :: tokens)) = openBraces? opened tokens := by
  have inside := openBraces?_add balanced (opened + 1)
  rw [Nat.zero_add] at inside
  rw [openBraces?, opens, show Category.leftBrace.braces? opened = some (opened + 1) from rfl,
    Option.bind_some, openBraces?_append, inside, Option.bind_some, openBraces?, closes]
  rfl

theorem Passable.openBraces? (passable : Passable terminator tokens) :
    CListing.openBraces? 0 tokens = some 0 := by
  induction passable with
  | nil => rfl
  | token _ _ noOpen noClose _ ih => rw [openBraces?_cons_of_ne noOpen noClose, ih]
  | parens opens closes _ _ inside later =>
    rw [openBraces?_cons_of_ne (by simp [opens]) (by simp [opens]), openBraces?_append, inside,
      Option.bind_some, openBraces?_cons_of_ne (by simp [closes]) (by simp [closes]), later]
  | braces opens closes _ _ inside later => rw [openBraces?_enclosed opens closes inside, later]

theorem IsBody.openBraces? (body : IsBody tokens) : CListing.openBraces? 0 tokens = some 0 := by
  induction body with
  | nil => rfl
  | token noOpen noClose _ _ ih => rw [openBraces?_cons_of_ne noOpen noClose, ih]
  | value assigns passable _ _ ih =>
    rw [openBraces?_cons_of_ne (by simp [assigns]) (by simp [assigns]), openBraces?_append,
      passable.openBraces?, Option.bind_some, ih]
  | body opens closes _ _ inside later => rw [openBraces?_enclosed opens closes inside, later]

/-! ## Phrases in declarations -/

theorem IsHead.append (head : IsHead tokens) (others : IsHead more) : IsHead (tokens ++ more) := by
  induction head with
  | nil => exact others
  | token noOpen noClose noValue notLast _ ih =>
    exact IsHead.token noOpen noClose noValue notLast ih
  | body opens closes inside _ ih =>
    rw [List.cons_append, List.append_assoc]
    exact IsHead.body opens closes inside ih

theorem isHead_of_plain (plain : ∀ token ∈ tokens, token.category ≠ .leftBrace ∧
    token.category ≠ .rightBrace ∧ token.category ≠ .assignment ∧ token.category ≠ .semicolon) :
    IsHead tokens := by
  induction tokens with
  | nil => exact IsHead.nil
  | cons token tokens ih =>
    obtain ⟨⟨noOpen, noClose, noValue, notLast⟩, others⟩ := List.forall_mem_cons.mp plain
    exact IsHead.token noOpen noClose noValue notLast (ih others)

/-- Without its last token a declaration is one still, unless that token closes a body. -/
theorem IsHead.of_concat (head : IsHead (tokens ++ [token]))
    (noClose : token.category ≠ .rightBrace) : IsHead tokens := by
  generalize all : tokens ++ [token] = others at head
  induction head generalizing tokens with
  | nil => exact absurd all (List.append_ne_nil_of_right_ne_nil _ (List.cons_ne_nil _ _))
  | token noOpen ownClose noValue notLast _ ih =>
    cases tokens with
    | nil => exact IsHead.nil
    | cons first tokens =>
      obtain ⟨rfl, rest⟩ := List.cons.inj all
      exact IsHead.token noOpen ownClose noValue notLast (ih rest)
  | @body opening closing inner later opens closes inside _ ih =>
    rcases List.eq_nil_or_concat' later with rfl | ⟨front, last, rfl⟩
    · have split : tokens ++ [token] = (opening :: inner) ++ [closing] := all
      obtain rfl := List.singleton_inj.mp (List.append_inj' split rfl).2
      contradiction
    · have split : tokens ++ [token] = (opening :: (inner ++ closing :: front)) ++ [last] := by
        simpa using all
      obtain ⟨rfl, same⟩ := List.append_inj' split rfl
      obtain rfl := List.singleton_inj.mp same
      exact IsHead.body opens closes inside (ih rfl)

/-- A pair of brackets or parentheses with what stands in them. -/
theorem IsHead.enclosed (opens : IsHead [opening]) (inside : IsHead inner)
    (closes : IsHead [closing]) (later : IsHead tokens) :
    IsHead (opening :: (inner ++ closing :: tokens)) :=
  opens.append (inside.append (closes.append later))

theorem Phrase.Spells.isHead {phrase : Phrase} (spells : phrase.Spells tokens) :
    IsHead tokens := by
  induction spells with
  | nil => exact IsHead.nil
  | @token token tokens plain _ ih =>
    refine IsHead.token ?_ ?_ ?_ ?_ ih <;>
      · intro category
        rw [category] at plain
        contradiction
  | body opens closes inside _ ih => exact IsHead.body opens closes inside ih
  | parens opens closes _ _ inside later =>
    exact IsHead.enclosed (isHead_of_plain (by simp [opens])) inside
      (isHead_of_plain (by simp [closes])) later
  | bound opens closes plain _ later =>
    refine IsHead.enclosed (isHead_of_plain (by simp [opens])) (isHead_of_plain ?_)
      (isHead_of_plain (by simp [closes])) later
    intro token inside
    refine ⟨?_, ?_, ?_, ?_⟩ <;>
      · intro category
        have allowed := plain token inside
        rw [category] at allowed
        contradiction
  | parameters opens closes _ _ inside later =>
    exact IsHead.enclosed (isHead_of_plain (by simp [opens])) inside
      (isHead_of_plain (by simp [closes])) later
  | ofSuffixes _ ih => exact ih
  | last _ ih => exact ih
  | next separates _ _ inside later =>
    refine inside.append (IsHead.token ?_ ?_ ?_ ?_ later) <;> simp [separates]

end Braces

/-! ## Closing parentheses -/

/-- Each closing parenthesis outside of braces is the last token or stands before a token that can
go on with a declaration. -/
def ParensGoOn (tokens : List Token) : Prop :=
  ∀ before closing next behind, tokens = before ++ closing :: next :: behind →
    closing.category = .rightParen → openBraces? 0 before = some 0 →
      next.category.goesOnWithDeclaration = true

/-- The test of `ParensGoOn`, if so many braces are open before the tokens. -/
def parensGoOn : Nat → List Token → Bool
  | _, [] => true
  | opened, token :: tokens =>
    (token.category ≠ .rightParen || opened ≠ 0 ||
        tokens.head?.all (·.category.goesOnWithDeclaration)) &&
      (token.category.braces? opened).all fun left => parensGoOn left tokens

section Closing

variable {tokens inner more : List Token} {opening closing token : Token} {opened left : Nat}

theorem parensGoOn_iff_of_opened :
    parensGoOn opened tokens = true ↔ ∀ before closing next behind,
      tokens = before ++ closing :: next :: behind → closing.category = .rightParen →
        openBraces? opened before = some 0 → next.category.goesOnWithDeclaration = true := by
  induction tokens generalizing opened with
  | nil => simp [parensGoOn]
  | cons token tokens ih =>
    rw [parensGoOn, Bool.and_eq_true]
    constructor
    · rintro ⟨first, later⟩ before closing next behind split closes balanced
      cases before with
      | nil =>
        obtain ⟨rfl, rfl⟩ := List.cons.inj split
        obtain rfl := Option.some.inj balanced
        simpa [closes] using first
      | cons _ before =>
        obtain ⟨rfl, rfl⟩ := List.cons.inj split
        obtain ⟨between, found, balanced⟩ := Option.bind_eq_some_iff.mp balanced
        rw [found, Option.all_some, ih] at later
        exact later before closing next behind rfl closes balanced
    · intro all
      refine ⟨?_, ?_⟩
      · by_cases judged : token.category = .rightParen ∧ opened = 0
        · obtain ⟨closes, rfl⟩ := judged
          cases tokens with
          | nil => simp
          | cons next tokens => simpa using Or.inr (all [] token next tokens rfl closes rfl)
        · rcases not_and_or.mp judged with other | inside
          · simp [other]
          · simp [inside]
      · cases found : token.category.braces? opened with
        | none => rfl
        | some left =>
          rw [Option.all_some, ih]
          rintro before closing next behind rfl closes balanced
          refine all (token :: before) closing next behind rfl closes ?_
          rw [openBraces?, found, Option.bind_some, balanced]

theorem parensGoOn_iff : parensGoOn 0 tokens = true ↔ ParensGoOn tokens :=
  parensGoOn_iff_of_opened

instance (tokens : List Token) : Decidable (ParensGoOn tokens) :=
  decidable_of_iff _ parensGoOn_iff

theorem parensGoOn_cons_of_ne (noParen : token.category ≠ .rightParen)
    (noOpen : token.category ≠ .leftBrace) (noClose : token.category ≠ .rightBrace)
    (tokens : List Token) : parensGoOn 0 (token :: tokens) = parensGoOn 0 tokens := by
  rw [parensGoOn, Category.braces?_of_ne noOpen noClose]
  simp [noParen]

theorem parensGoOn_rightParen (closes : closing.category = .rightParen) (tokens : List Token) :
    parensGoOn 0 (closing :: tokens) =
      (tokens.head?.all (·.category.goesOnWithDeclaration) && parensGoOn 0 tokens) := by
  rw [parensGoOn, Category.braces?_of_ne (by simp [closes]) (by simp [closes])]
  simp [closes]

/-- Inside braces any token may stand behind a parenthesis. -/
theorem parensGoOn_inside (found : openBraces? opened inner = some left) (more : List Token) :
    parensGoOn (opened + 1) (inner ++ more) = parensGoOn (left + 1) more := by
  induction inner generalizing opened with
  | nil => rw [List.nil_append, Option.some.inj found]
  | cons token inner ih =>
    obtain ⟨between, first, later⟩ := Option.bind_eq_some_iff.mp found
    rw [List.cons_append, parensGoOn, Category.braces?_add first, Option.all_some, ih later]
    simp

theorem parensGoOn_body (opens : opening.category = .leftBrace)
    (closes : closing.category = .rightBrace) (balanced : openBraces? 0 inner = some 0)
    (tokens : List Token) :
    parensGoOn 0 (opening :: (inner ++ closing :: tokens)) = parensGoOn 0 tokens := by
  rw [parensGoOn, opens, show Category.leftBrace.braces? 0 = some 1 from rfl, Option.all_some,
    parensGoOn_inside balanced, parensGoOn, closes]
  rfl

theorem parensGoOn_bound (plain : ∀ token ∈ inner, token.category.inBound = true)
    (more : List Token) : parensGoOn 0 (inner ++ more) = parensGoOn 0 more := by
  induction inner with
  | nil => rfl
  | cons token inner ih =>
    obtain ⟨allowed, others⟩ := List.forall_mem_cons.mp plain
    rw [List.cons_append, parensGoOn_cons_of_ne _ _ _ (inner ++ more), ih others] <;>
      · intro category
        rw [category] at allowed
        contradiction

/-- What stands behind the bounds and parameter lists of a declarator goes on with it. -/
theorem Phrase.Spells.head?_suffixes (spells : suffixes.Spells tokens)
    (goesOn : more.head?.all (·.category.goesOnWithDeclaration) = true) :
    (tokens ++ more).head?.all (·.category.goesOnWithDeclaration) = true := by
  cases spells with
  | nil => exact goesOn
  | bound opens _ _ _ =>
    rw [List.cons_append, List.head?_cons, Option.all_some, opens]
    rfl
  | parameters opens _ _ _ =>
    rw [List.cons_append, List.head?_cons, Option.all_some, opens]
    rfl

/-- A pair of parentheses misleads only inside, if what stands behind them does not. -/
theorem parensGoOn_parens (opens : opening.category = .leftParen)
    (closes : closing.category = .rightParen)
    (inside : parensGoOn 0 (inner ++ closing :: tokens) = parensGoOn 0 (closing :: tokens))
    (goesOn : tokens.head?.all (·.category.goesOnWithDeclaration) = true) :
    parensGoOn 0 (opening :: (inner ++ closing :: tokens)) = parensGoOn 0 tokens := by
  rw [parensGoOn_cons_of_ne (by simp [opens]) (by simp [opens]) (by simp [opens]), inside,
    parensGoOn_rightParen closes, goesOn, Bool.true_and]

/-- No closing parenthesis of a phrase misleads, if what stands behind the phrase does not. -/
theorem Phrase.Spells.parensGoOn {phrase : Phrase} (spells : phrase.Spells tokens)
    (goesOn : more.head?.all (·.category.goesOnWithDeclaration) = true) :
    CListing.parensGoOn 0 (tokens ++ more) = CListing.parensGoOn 0 more := by
  have closingGoesOn {closing : Token} (closes : closing.category = .rightParen)
      (behind : List Token) :
      (closing :: behind).head?.all (·.category.goesOnWithDeclaration) = true := by
    rw [List.head?_cons, Option.all_some, closes]
    rfl
  induction spells generalizing more with
  | nil => rfl
  | token plain _ ih =>
    rw [List.cons_append, parensGoOn_cons_of_ne _ _ _, ih goesOn] <;>
      · intro category
        rw [category] at plain
        contradiction
  | body opens closes inside _ ih =>
    rw [List.cons_append, List.append_assoc, List.cons_append,
      parensGoOn_body opens closes inside.openBraces?, ih goesOn]
  | parens opens closes _ suffixes inside later =>
    rw [List.cons_append, List.append_assoc, List.cons_append,
      parensGoOn_parens opens closes (inside (closingGoesOn closes _))
        (suffixes.head?_suffixes goesOn), later goesOn]
  | ofSuffixes _ ih => exact ih goesOn
  | bound opens closes plain _ ih =>
    rw [List.cons_append, List.append_assoc, List.cons_append,
      parensGoOn_cons_of_ne (by simp [opens]) (by simp [opens]) (by simp [opens]),
      parensGoOn_bound plain,
      parensGoOn_cons_of_ne (by simp [closes]) (by simp [closes]) (by simp [closes]), ih goesOn]
  | parameters opens closes _ suffixes inside later =>
    rw [List.cons_append, List.append_assoc, List.cons_append,
      parensGoOn_parens opens closes (inside (closingGoesOn closes _))
        (suffixes.head?_suffixes goesOn), later goesOn]
  | last _ ih => exact ih goesOn
  | next separates _ _ inside later =>
    rw [List.append_assoc, List.cons_append,
      inside (by simp [separates, Category.goesOnWithDeclaration]),
      parensGoOn_cons_of_ne (by simp [separates]) (by simp [separates]) (by simp [separates]),
      later goesOn]

/-- In declarators without parentheses in their bounds every closing parenthesis goes on. -/
theorem Phrase.Spells.parensGoOn_self {phrase : Phrase} (spells : phrase.Spells tokens) :
    ParensGoOn tokens := by
  have all := @Phrase.Spells.parensGoOn tokens [] phrase spells rfl
  rw [List.append_nil] at all
  exact parensGoOn_iff.mp all

theorem ParensGoOn.of_append (goOn : ParensGoOn (tokens ++ more)) : ParensGoOn tokens := by
  rintro before closing next behind rfl
  exact goOn before closing next (behind ++ more) (by simp)

/-- A declarator that ends in a parenthesis is the header of a function. -/
theorem Phrase.Spells.header {phrase : Phrase} (spells : phrase.Spells (tokens ++ [closing]))
    (closes : closing.category = .rightParen) : IsHead tokens ∧ ParensGoOn tokens :=
  ⟨spells.isHead.of_concat (by simp [closes]), spells.parensGoOn_self.of_append⟩

end Closing

end CListing
