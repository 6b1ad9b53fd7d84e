import CListing.Proofs.Listing.Draft
import CListing.Proofs.Reader.Supply

/-!
# Statements and their layout

Well-formed statements as trees, with the tokens that they are spelled with and the lines that they
are laid out in. Blocks keep their level and have their contents one level deeper; any other
statement under a condition or a loop stands one level deeper. The labels of a `switch` stand one
level deeper than its braces, and the statements after them two. A label stands on the line of the
statement that it labels, and an `if` on the line of the `else` before it.
-/

namespace CListing

namespace Category

/-- The keywords that begin or control a statement. -/
def isControl : Category → Bool
  | kwBreak | kwCase | kwContinue | kwDefault | kwDo | kwElse | kwFor | kwGoto | kwIf | kwReturn
  | kwSwitch | kwWhile => true
  | _ => false

/-- A token of the category may stand in an expression. -/
def inExpression (category : Category) : Bool :=
  !category.isControl && category ≠ leftBrace && category ≠ rightBrace

/-- A token of the category may stand in a declaration before its semicolon. -/
def inDeclaration (category : Category) : Bool :=
  category ≠ leftBrace && category ≠ rightBrace && category ≠ semicolon

end Category

/-! ## Tokens -/

namespace Item

/-- The token of a category that has one spelling in statements. -/
def fixed (category : Category) : Item where
  category := category
  lexeme :=
    match category with
    | .kwBreak => "break".toList
    | .kwCase => "case".toList
    | .kwContinue => "continue".toList
    | .kwDefault => "default".toList
    | .kwDo => "do".toList
    | .kwElse => "else".toList
    | .kwFor => "for".toList
    | .kwGoto => "goto".toList
    | .kwIf => "if".toList
    | .kwReturn => "return".toList
    | .kwSwitch => "switch".toList
    | .kwWhile => "while".toList
    | .colon => [':']
    | .leftParen => ['(']
    | .rightParen => [')']
    | .leftBrace => ['\x7b']
    | .rightBrace => ['\x7d']
    | .semicolon => [';']
    | _ => []

@[simp]
theorem category_fixed (category : Category) : (fixed category).category = category :=
  rfl

/-- The token with further marks on its spacing. -/
def mark (item : Item) (spacing : Spacing) : Mark where
  lexeme := item.lexeme
  spacing := item.spelled.merge spacing

/-- The token in an expression, after a token of the category `previous`. A parenthesis joins the
name of the function that is called. -/
def markInExpression (previous : Category) (item : Item) : Mark :=
  item.mark ((item.category.expressionSpacing previous).merge
    (if item.category = .leftParen && previous.isName then .left else .free))

/-- The parentheses of the tokens are balanced, if so many are open before them. Other tokens are
allowed ones, and outside of all parentheses none of them is the terminator. -/
def balanced (allowed : Category → Bool) (terminator : Category) : Nat → List Item → Bool
  | depth, [] => depth = 0
  | depth, item :: rest =>
    if item.category = .leftParen then balanced allowed terminator (depth + 1) rest
    else if item.category = .rightParen then
      0 < depth && balanced allowed terminator (depth - 1) rest
    else
      allowed item.category && (0 < depth || item.category ≠ terminator) &&
        balanced allowed terminator depth rest

/-- The tokens are an expression before the terminator. -/
def isExpression (terminator : Category) (tokens : List Item) : Bool :=
  balanced Category.inExpression terminator 0 tokens

/-- The tokens begin with a name and a colon. -/
def beginsWithLabel : List Item → Bool
  | name :: next :: _ => name.category.isName && next.category = .colon
  | _ => false

end Item

/-- The tokens of an expression in a row, after a token of the category `previous`. -/
def expressionMarks : Category → List Item → List Mark
  | _, [] => []
  | previous, item :: rest => item.markInExpression previous :: expressionMarks item.category rest

/-- The tokens of a declaration in a row. From the first assignment on they stand as in an
expression. -/
def declarationMarks : List Item → List Mark
  | [] => []
  | item :: rest =>
    if item.category = .assignment then expressionMarks .foreign (item :: rest)
    else item.mark item.category.declarationSpacing :: declarationMarks rest

/-- A keyword with an expression in parentheses. -/
def header (keyword : Item) (condition : List Item) : List Item :=
  keyword :: .fixed .leftParen :: (condition ++ [.fixed .rightParen])

/-- A keyword with an expression in parentheses, in a row. -/
def headerMarks (keyword : Item) (condition : List Item) : List Mark :=
  keyword.mark .free :: (Item.fixed .leftParen).mark .free ::
    (expressionMarks .foreign condition ++ [(Item.fixed .rightParen).mark .free])

/-- A declaration at the head of a block, without its semicolon. -/
structure Declaration where
  starter : Item
  tokens : List Item
deriving DecidableEq, Repr

namespace Declaration

/-- The tokens of the declaration. -/
def items (declaration : Declaration) : List Item :=
  declaration.starter :: (declaration.tokens ++ [.fixed .semicolon])

/-- The declaration in a row. -/
def marks (declaration : Declaration) : List Mark :=
  declarationMarks (declaration.starter :: declaration.tokens) ++
    [(Item.fixed .semicolon).mark .free]

/-- The declaration begins as one, and its parentheses are balanced. -/
def wellFormed (declaration : Declaration) : Bool :=
  declaration.starter.category.startsDeclaration &&
    Item.balanced Category.inDeclaration .semicolon 0 declaration.tokens

end Declaration

/-- A label of a `switch`. -/
inductive CaseLabel
  | ofValue (value : List Item)
  | otherwise
deriving DecidableEq, Repr

namespace CaseLabel

/-- The tokens of the label before its colon. -/
def tokens : CaseLabel → List Item
  | ofValue value => .fixed .kwCase :: value
  | otherwise => [.fixed .kwDefault]

/-- The label with its colon in a row. -/
def marks (label : CaseLabel) : List Mark :=
  expressionMarks .foreign label.tokens ++ [(Item.fixed .colon).mark .left]

/-- The value of the label has no colon outside parentheses. -/
def wellFormed : CaseLabel → Bool
  | ofValue value => Item.isExpression .colon value
  | otherwise => true

end CaseLabel

/-! ## Trees -/

mutual

/-- A statement. -/
inductive Statement
  | expression (tokens : List Item)
  /-- A `break` or `continue`. -/
  | jump (keyword : Item)
  /-- A `return`; without a value there are no tokens. -/
  | result (value : List Item)
  /-- A `goto`. -/
  | goesTo (label : Item)
  | labelled (label : Item) (body : Statement)
  | block (declarations : List Declaration) (body : Statements)
  | ifThen (condition : List Item) (body : Statement)
  | ifElse (condition : List Item) (body other : Statement)
  /-- A `while` or `for`. -/
  | loop (keyword : Item) (condition : List Item) (body : Statement)
  | doWhile (body : Statement) (condition : List Item)
  | switch (selector : List Item) (sections : Sections)

/-- Statements one after the other. -/
inductive Statements
  | nil
  | cons (first : Statement) (rest : Statements)

/-- The labels of a `switch` with the statements after each of them. -/
inductive Sections
  | nil
  | cons (label : CaseLabel) (body : Statements) (rest : Sections)

end

namespace Statement

/-- The statement is a block. -/
def isBlock : Statement → Bool
  | block _ _ => true
  | _ => false

/-- The statement is an `if`, with or without an `else`. -/
def isConditional : Statement → Bool
  | ifThen _ _ | ifElse _ _ _ => true
  | _ => false

/-- The statement begins with a label. -/
def isLabelled : Statement → Bool
  | labelled _ _ => true
  | _ => false

/-- The statement ends in an `if` without an `else`. -/
def endsOpen : Statement → Bool
  | labelled _ body | loop _ _ body => body.endsOpen
  | ifThen _ _ => true
  | ifElse _ _ other => other.endsOpen
  | _ => false

/-- The level of the statement under a condition or a loop of the given level. -/
def levelUnder (level : Nat) (statement : Statement) : Nat :=
  if statement.isBlock then level else level + 1

end Statement

/-! ## Spelling -/

mutual

/-- The tokens of a statement. -/
def Statement.items : Statement → List Item
  | .expression tokens => tokens ++ [.fixed .semicolon]
  | .jump keyword => [keyword, .fixed .semicolon]
  | .result value => .fixed .kwReturn :: (value ++ [.fixed .semicolon])
  | .goesTo label => [.fixed .kwGoto, label, .fixed .semicolon]
  | .labelled label body => label :: .fixed .colon :: body.items
  | .block declarations body =>
    .fixed .leftBrace ::
      (declarations.flatMap Declaration.items ++ (body.items ++ [.fixed .rightBrace]))
  | .ifThen condition body => header (.fixed .kwIf) condition ++ body.items
  | .ifElse condition body other =>
    header (.fixed .kwIf) condition ++ (body.items ++ .fixed .kwElse :: other.items)
  | .loop keyword condition body => header keyword condition ++ body.items
  | .doWhile body condition =>
    .fixed .kwDo :: (body.items ++ (header (.fixed .kwWhile) condition ++ [.fixed .semicolon]))
  | .switch selector sections =>
    header (.fixed .kwSwitch) selector ++
      .fixed .leftBrace :: (sections.items ++ [.fixed .rightBrace])

/-- The tokens of statements. -/
def Statements.items : Statements → List Item
  | .nil => []
  | .cons first rest => first.items ++ rest.items

/-- The tokens of the sections of a `switch`. -/
def Sections.items : Sections → List Item
  | .nil => []
  | .cons label body rest => label.tokens ++ .fixed .colon :: (body.items ++ rest.items)

end

/-! ## Layout -/

mutual

/-- The lines of a statement at the given level; on the first one the marks stand before it. -/
def Statement.lines (level : Nat) (before : List Mark) : Statement → List PlannedLine
  | .expression tokens =>
    [.row level (before ++ expressionMarks .foreign tokens ++ [(Item.fixed .semicolon).mark .free])]
  | .jump keyword =>
    [.row level (before ++ [keyword.mark .free, (Item.fixed .semicolon).mark .free])]
  | .result value =>
    [.row level (before ++ (Item.fixed .kwReturn).mark .free ::
      (expressionMarks .foreign value ++ [(Item.fixed .semicolon).mark .free]))]
  | .goesTo label =>
    [.row level (before ++ [(Item.fixed .kwGoto).mark .free, label.mark .free,
      (Item.fixed .semicolon).mark .free])]
  | .labelled label body =>
    body.lines level (before ++ [label.mark .free, (Item.fixed .colon).mark .left])
  | .block declarations body =>
    .row level (before ++ [(Item.fixed .leftBrace).mark .free]) ::
      (declarations.map (fun declaration => .row (level + 1) declaration.marks) ++
        (if declarations.isEmpty then [] else [.gap]) ++ body.lines (level + 1) ++
          [.row level [(Item.fixed .rightBrace).mark .free]])
  | .ifThen condition body =>
    .row level (before ++ headerMarks (.fixed .kwIf) condition) ::
      body.lines (body.levelUnder level) []
  | .ifElse condition body other =>
    .row level (before ++ headerMarks (.fixed .kwIf) condition) ::
      (body.lines (body.levelUnder level) [] ++
        if other.isConditional then other.lines level [(Item.fixed .kwElse).mark .free]
        else .row level [(Item.fixed .kwElse).mark .free] ::
          other.lines (other.levelUnder level) [])
  | .loop keyword condition body =>
    .row level (before ++ headerMarks keyword condition) :: body.lines (body.levelUnder level) []
  | .doWhile body condition =>
    .row level (before ++ [(Item.fixed .kwDo).mark .free]) ::
      (body.lines (body.levelUnder level) [] ++
        [.row level (headerMarks (.fixed .kwWhile) condition ++
          [(Item.fixed .semicolon).mark .free])])
  | .switch selector sections =>
    .row level (before ++ headerMarks (.fixed .kwSwitch) selector) ::
      .row level [(Item.fixed .leftBrace).mark .free] ::
        (sections.lines level ++ [.row level [(Item.fixed .rightBrace).mark .free]])

/-- The lines of statements at the given level. -/
def Statements.lines (level : Nat) : Statements → List PlannedLine
  | .nil => []
  | .cons first rest => first.lines level [] ++ rest.lines level

/-- The lines of the sections of a `switch` at the given level. -/
def Sections.lines (level : Nat) : Sections → List PlannedLine
  | .nil => []
  | .cons label body rest =>
    .row (level + 1) label.marks :: (body.lines (level + 2) ++ rest.lines level)

end

/-! ## Well-formed statements -/

mutual

/-- The statement is what its tokens say: expressions have balanced parentheses and do not look like
labels, a label stands before a statement without one, no declaration follows those at the head of
a block, and an `else` belongs to the last `if` before it. -/
def Statement.wellFormed : Statement → Bool
  | .expression tokens => Item.isExpression .semicolon tokens && !Item.beginsWithLabel tokens
  | .jump keyword => keyword = .fixed .kwBreak || keyword = .fixed .kwContinue
  | .result value => Item.isExpression .semicolon value
  | .goesTo label => label.category.isName
  | .labelled label body => label.category.isName && !body.isLabelled && body.wellFormed
  | .block declarations body =>
    declarations.all (·.wellFormed) && !body.items.head?.any (·.category.startsDeclaration) &&
      body.wellFormed
  | .ifThen condition body => Item.isExpression .rightParen condition && body.wellFormed
  | .ifElse condition body other =>
    Item.isExpression .rightParen condition && !body.endsOpen && body.wellFormed &&
      other.wellFormed
  | .loop keyword condition body =>
    (keyword = .fixed .kwWhile || keyword = .fixed .kwFor) &&
      Item.isExpression .rightParen condition && body.wellFormed
  | .doWhile body condition => Item.isExpression .rightParen condition && body.wellFormed
  | .switch selector sections => Item.isExpression .rightParen selector && sections.wellFormed

/-- Each of the statements is well-formed. -/
def Statements.wellFormed : Statements → Bool
  | .nil => true
  | .cons first rest => first.wellFormed && rest.wellFormed

/-- The labels and statements of each section are well-formed. -/
def Sections.wellFormed : Sections → Bool
  | .nil => true
  | .cons label body rest => label.wellFormed && body.wellFormed && rest.wellFormed

end

end CListing
