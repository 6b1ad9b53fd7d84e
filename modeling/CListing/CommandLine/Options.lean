import CListing.CommandLine.Flag
import CListing.Layout
import CListing.Text.Numeral
import CListing.Text.Quoted

/-!
# Options

The choices of a user, and what can be wrong with an argument. Options take effect one after the
other, so a later one overrides an earlier one, and the first that is wrong ends the reading.
-/

namespace CListing.CommandLine

/-- What the log says beyond faults. -/
inductive Verbosity
  | tokens
  | stats
  | all
deriving DecidableEq, Repr

namespace Verbosity

/-- The word for a verbosity. -/
def name : Verbosity → String
  | tokens => "tokens"
  | stats => "stats"
  | all => "all"

/-- The verbosity of a word. -/
def ofName? (text : List Char) : Option Verbosity :=
  [tokens, stats, all].find? fun verbosity => verbosity.name.toList == text

end Verbosity

/-- The choices of a user. A text or number is absent also if the end mark was given as its
value. -/
structure Options where
  /-- The source, without its extension. -/
  name? : Option (List Char) := none
  out? : Option (List Char) := none
  log? : Option (List Char) := none
  quiet : Bool := false
  verbose : List Verbosity := []
  indentSize? : Option Int := some 4
  lineWidth? : Option Int := some 78
  pageLength? : Option Int := some 56
  headingWidth? : Option Int := some 70
deriving DecidableEq, Repr

/-- What is wrong with the arguments. -/
inductive ArgumentFault
  /-- The value of the option is missing. -/
  | missingValue (flag : Flag)
  /-- The option takes no value. -/
  | surplusValue (flag : Flag) (value : List Char)
  /-- The value is no whole number. -/
  | noNumber (flag : Flag) (value : List Char)
  /-- The number is not among the sizes on offer. -/
  | sizeNotOffered (flag : Flag) (value : Int)
  /-- The word is no verbosity. -/
  | noVerbosity (value : List Char)
  /-- The arguments belong to nothing. -/
  | unrecognized (arguments : List (List Char))
deriving DecidableEq, Repr

/-- The indent sizes on offer. -/
def offeredSizes : List Int :=
  (List.range' 1 16).map Int.ofNat

/-- A text between quotes. -/
def quotedString (text : List Char) : String :=
  String.ofList (Text.quoted text)

/-- A message about the argument of an option. -/
def aboutArgument (flag : Flag) (message : String) : String :=
  "argument " ++ flag.title ++ ": " ++ message

/-- The wording of a choice that is not on offer. -/
def invalidChoice (value : String) (offered : List String) : String :=
  "invalid choice: " ++ value ++ " (choose from " ++ String.intercalate ", " offered ++ ")"

/-- The wording of a fault. -/
def ArgumentFault.message : ArgumentFault → String
  | missingValue flag => aboutArgument flag "expected one argument"
  | surplusValue flag value =>
    aboutArgument flag ("ignored explicit argument " ++ quotedString value)
  | noNumber flag value => aboutArgument flag ("invalid int value: " ++ quotedString value)
  | sizeNotOffered flag value =>
    aboutArgument flag (invalidChoice (toString value) (offeredSizes.map toString))
  | noVerbosity value =>
    let offered := [Verbosity.tokens, .stats, .all].map fun verbosity =>
      quotedString verbosity.name.toList
    aboutArgument .verbose (invalidChoice (quotedString value) offered)
  | unrecognized arguments =>
    "unrecognized arguments: " ++ String.intercalate " " (arguments.map String.ofList)

/-- Why the reading of the arguments ends before their end. -/
inductive Interruption
  /-- The help is asked for. -/
  | help
  /-- The version is asked for. -/
  | version
  /-- An argument is wrong. -/
  | fault (fault : ArgumentFault)
deriving DecidableEq, Repr

namespace Options

/-- The number that is the value of an option, if a value was given. -/
def number? (flag : Flag) : Option (List Char) → Except Interruption (Option Int)
  | none => .ok none
  | some text =>
    match Text.readInt? text with
    | some value => .ok (some value)
    | none => .error (.fault (.noNumber flag text))

/-- An indent size has to be on offer. -/
def checkSize : Option Int → Except Interruption (Option Int)
  | none => .ok none
  | some value =>
    if offeredSizes.contains value then .ok (some value)
    else .error (.fault (.sizeNotOffered .indentSize value))

/-- An option takes effect, with its value if there is one. -/
def set (options : Options) (flag : Flag) (value? : Option (List Char)) :
    Except Interruption Options :=
  match flag with
  | .help => .error .help
  | .version => .error .version
  | .quiet => .ok { options with quiet := true }
  | .out => .ok { options with out? := value? }
  | .log => .ok { options with log? := value? }
  | .verbose =>
    match value? with
    | none => .ok { options with verbose := options.verbose ++ [.stats] }
    | some word =>
      match Verbosity.ofName? word with
      | some verbosity => .ok { options with verbose := options.verbose ++ [verbosity] }
      | none => .error (.fault (.noVerbosity word))
  | .indentSize =>
    ((number? flag value?).bind checkSize).map fun n => { options with indentSize? := n }
  | .lineWidth => (number? flag value?).map fun n => { options with lineWidth? := n }
  | .pageLength => (number? flag value?).map fun n => { options with pageLength? := n }
  | .headingWidth => (number? flag value?).map fun n => { options with headingWidth? := n }

/-- The tokens go to the log. -/
def traced (options : Options) : Bool :=
  options.verbose.contains .tokens || options.verbose.contains .all

/-- The statistics go to the log. -/
def wantsStatistics (options : Options) : Bool :=
  options.verbose.contains .stats || options.verbose.contains .all

/-- Why the measures make no layout. -/
inductive LayoutRefusal
  /-- A measure is at fault. -/
  | fault (fault : Layout.Fault)
  /-- A measure has no value that could be compared with its limit. -/
  | noValue
deriving DecidableEq, Repr

/-- The layout with one more measure, which has to be acceptable. -/
def withMeasure (layout : Layout) (value? : Option Int) (put : Layout → Int → Layout) :
    Except LayoutRefusal Layout :=
  match value? with
  | none => .error .noValue
  | some value =>
    match (put layout value).fault? with
    | some fault => .error (.fault fault)
    | none => .ok (put layout value)

/-- The layout that was chosen. The measures are looked at in the order of the layout. -/
def layout? (options : Options) : Except LayoutRefusal Layout := do
  let layout ← withMeasure {} options.indentSize? fun layout n => { layout with indentSize := n }
  let layout ←
    withMeasure layout options.pageLength? fun layout n => { layout with linesPerPage := n }
  let layout ←
    withMeasure layout options.headingWidth? fun layout n => { layout with headingWidth := n }
  withMeasure layout options.lineWidth? fun layout n => { layout with lineWidth := n }

end Options

end CListing.CommandLine
