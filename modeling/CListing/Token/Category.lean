/-!
# Token categories

The formatter decides by the category of a token alone. Keywords that begin a statement or control
one have a category each; the words of declarations share two; operators are grouped by the places
in which they may stand.
-/

namespace CListing

/-- What kind of token a lexeme is. -/
inductive Category
  /-- The place before the first token. -/
  | noToken
  /-- A character that begins no token of C. -/
  | foreign
  | endOfFile
  | comment
  | directive
  | identifier
  /-- An identifier that begins in upper case, by custom the name of a type or of a macro. -/
  | upperCaseIdentifier
  | constant
  | string
  | typeSpecifier
  | storageSpecifier
  | kwBreak
  | kwCase
  | kwContinue
  | kwDefault
  | kwDo
  | kwElse
  | kwEnum
  | kwFor
  | kwGoto
  | kwIf
  | kwReturn
  | kwSizeof
  | kwStruct
  | kwSwitch
  | kwUnion
  | kwWhile
  | unary
  | unaryOrBinary
  /-- `++` and `--`, before or after their operand. -/
  | increment
  | binary
  | assignment
  /-- The question mark of a conditional expression. -/
  | conditional
  /-- Member access. -/
  | member
  | ellipsis
  | colon
  | leftParen
  | rightParen
  | leftBracket
  | rightBracket
  | leftBrace
  | rightBrace
  | semicolon
  | comma
deriving DecidableEq, Repr, Inhabited

namespace Category

/-- The name of the category in logs and reports. -/
def name : Category → String
  | noToken => "NONE"
  | foreign => "NOT_FOUND"
  | endOfFile => "END_OF_FILE"
  | comment => "COMMENT"
  | directive => "COMPILER_DIRECTIVE"
  | identifier => "IDENTIFIER"
  | upperCaseIdentifier => "UPPER_CASE_IDENTIFIER"
  | constant => "CONSTANT"
  | string => "STRING"
  | typeSpecifier => "TYPE_SPECIFIER"
  | storageSpecifier => "SC_SPECIFIER"
  | kwBreak => "BREAK"
  | kwCase => "CASE"
  | kwContinue => "CONTINUE"
  | kwDefault => "DEFAULT"
  | kwDo => "DO"
  | kwElse => "ELSE"
  | kwEnum => "ENUM"
  | kwFor => "FOR"
  | kwGoto => "GOTO"
  | kwIf => "IF"
  | kwReturn => "RETURN"
  | kwSizeof => "SIZEOF"
  | kwStruct => "STRUCT"
  | kwSwitch => "SWITCH"
  | kwUnion => "UNION"
  | kwWhile => "WHILE"
  | unary => "UNARY_OPERATOR"
  | unaryOrBinary => "UNARY_OR_BINARY_OPERATOR"
  | increment => "PRE_OR_POST_UNARY_OPERATOR"
  | binary => "BINARY_OPERATOR"
  | assignment => "ASSIGNMENT_OPERATOR"
  | conditional => "TERNARY_OPERATOR"
  | member => "STRUCTURE_OPERATOR"
  | ellipsis => "ELLIPSIS"
  | colon => "COLON"
  | leftParen => "LEFT_PARENTHESIS"
  | rightParen => "RIGHT_PARENTHESIS"
  | leftBracket => "LEFT_BRACKET"
  | rightBracket => "RIGHT_BRACKET"
  | leftBrace => "LEFT_BRACE"
  | rightBrace => "RIGHT_BRACE"
  | semicolon => "SEMICOLON"
  | comma => "COMMA"

/-- All categories, in the order of their declaration. -/
def all : List Category :=
  [noToken, foreign, endOfFile, comment, directive, identifier, upperCaseIdentifier, constant,
   string, typeSpecifier, storageSpecifier, kwBreak, kwCase, kwContinue, kwDefault, kwDo, kwElse,
   kwEnum, kwFor, kwGoto, kwIf, kwReturn, kwSizeof, kwStruct, kwSwitch, kwUnion, kwWhile, unary,
   unaryOrBinary, increment, binary, assignment, conditional, member, ellipsis, colon, leftParen,
   rightParen, leftBracket, rightBracket, leftBrace, rightBrace, semicolon, comma]

theorem mem_all (category : Category) : category ∈ all := by
  cases category <;> decide

/-- The category of a name. -/
def ofName? (text : String) : Option Category :=
  all.find? fun category => category.name == text

/-- Different categories have different names. -/
theorem ofName?_name (category : Category) : ofName? category.name = some category := by
  cases category <;> decide

/-- Comments and directives are passed over in the search for the next token. -/
def isPassedOver (category : Category) : Bool :=
  category = comment || category = directive

/-- A token of these categories ends an operand, so that an operator after it is postfix or
binary. -/
def endsOperand : Category → Bool
  | identifier | upperCaseIdentifier | constant | string | rightBracket | rightParen => true
  | _ => false

/-- A token of these categories begins a declaration. -/
def startsDeclaration : Category → Bool
  | typeSpecifier | storageSpecifier | kwStruct | kwUnion | kwEnum | upperCaseIdentifier => true
  | _ => false

/-- After a closing parenthesis at file level, a token of these categories means that what stands
before is no function header. -/
def goesOnWithDeclaration : Category → Bool
  | semicolon | comma | leftParen | leftBracket | rightParen | assignment | endOfFile => true
  | _ => false

/-- A token of these categories may name a function, a label or a variable. -/
def isName : Category → Bool
  | identifier | upperCaseIdentifier => true
  | _ => false

end Category

end CListing
