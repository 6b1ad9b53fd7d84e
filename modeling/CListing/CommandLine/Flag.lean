/-!
# Flags

The options of the command line: how each is spelled and whether it takes a value.
-/

namespace CListing.CommandLine

/-- An option of the command line. -/
inductive Flag
  | help
  | version
  | out
  | log
  | quiet
  | verbose
  | indentSize
  | lineWidth
  | pageLength
  | headingWidth
deriving DecidableEq, Repr

/-- How many values an option takes. -/
inductive Arity
  | none
  | one
  | atMostOne
deriving DecidableEq, Repr

namespace Flag

/-- All options. -/
def all : List Flag :=
  [help, version, out, log, quiet, verbose, indentSize, lineWidth, pageLength, headingWidth]

/-- The spellings of an option. -/
def spellings : Flag → List String
  | help => ["-h", "--help"]
  | version => ["--version"]
  | out => ["--out", "-O"]
  | log => ["--log"]
  | quiet => ["--quiet", "-q"]
  | verbose => ["--verbose", "-v"]
  | indentSize => ["--indent-size"]
  | lineWidth => ["--line-width"]
  | pageLength => ["--page-length"]
  | headingWidth => ["--heading-width"]

/-- The values of an option. -/
def arity : Flag → Arity
  | help | version | quiet => .none
  | out | log | indentSize | lineWidth | pageLength | headingWidth => .one
  | verbose => .atMostOne

/-- The option with the given spelling. -/
def ofSpelling? (text : List Char) : Option Flag :=
  all.find? fun flag => flag.spellings.any (·.toList == text)

/-- The option as messages name it. -/
def title (flag : Flag) : String :=
  String.intercalate "/" flag.spellings

theorem mem_all (flag : Flag) : flag ∈ all := by
  cases flag <;> decide

/-- No spelling belongs to two options. -/
theorem ofSpelling?_of_mem {flag : Flag} {spelling : String}
    (member : spelling ∈ flag.spellings) : ofSpelling? spelling.toList = some flag := by
  cases flag <;> simp only [spellings, List.mem_cons, List.not_mem_nil, or_false] at member
  case help | out | quiet | verbose => rcases member with rfl | rfl <;> decide
  all_goals subst member; decide

end Flag

end CListing.CommandLine
