import CListing.CommandLine.Options

/-!
# Arguments

An argument is an option, the end mark `--` or a plain text. Negative numbers, a single dash and
texts with a blank in them are plain although they begin with a dash, unless they are options.
Options of one letter may share a dash, and a value may be attached to an option: to a letter
directly, to a word after an equals sign. A value that is not attached is the next argument, which
has to be plain. The first plain text that is no value names the source. What belongs to nothing is
collected and refused at the end.
-/

namespace CListing.CommandLine

/-- What an argument is by its looks. -/
inductive Shape
  | plain
  | endMark
  /-- An option, with the value attached to it. -/
  | flag (flag : Flag) (short : Bool) (attached? : Option (List Char))
  /-- It looks like an option and is none. -/
  | unknown
deriving DecidableEq, Repr

/-- An argument with its shape. -/
structure Argument where
  text : List Char
  shape : Shape
deriving DecidableEq, Repr

/-- The mark after which every argument is plain. -/
def endMark : List Char :=
  ['-', '-']

namespace Shape

/-- The spelling of an option of one letter has a single dash. -/
def isShort (spelling : List Char) : Bool :=
  spelling[1]? != some '-'

/-- An option with a value attached by an equals sign. -/
def attached? (text : List Char) : Option Shape :=
  match text.dropWhile (· ≠ '=') with
  | [] => none
  | _ :: value =>
    let spelling := text.takeWhile (· ≠ '=')
    (Flag.ofSpelling? spelling).map fun found => .flag found (isShort spelling) (some value)

/-- A letter option followed by its value or by further letters. -/
def letters? (text : List Char) : Option Shape :=
  match text with
  | dash :: letter :: rest =>
    (Flag.ofSpelling? [dash, letter]).map fun found => .flag found true (some rest)
  | _ => none

/-- The shape of an argument before the end mark. -/
def ofText (text : List Char) : Shape :=
  if text = CommandLine.endMark then .endMark
  else if text.head? ≠ some '-' then .plain
  else
    match Flag.ofSpelling? text with
    | some found => .flag found (isShort text) none
    | none =>
      if text = ['-'] then .plain
      else
        match (attached? text).or (letters? text) with
        | some shape => shape
        | none =>
          if Text.isNegativeNumeral text || text.contains ' ' then .plain else .unknown

end Shape

/-- The arguments with their shapes. -/
def shapes : List (List Char) → List Argument
  | [] => []
  | text :: rest =>
    let shape := Shape.ofText text
    { text := text, shape := shape } ::
      if shape = .endMark then rest.map fun text => { text := text, shape := .plain }
      else shapes rest

/-- An option in effect. -/
structure Use where
  flag : Flag
  value? : Option (List Char) := none
deriving DecidableEq, Repr

/-- An option with a value. The end mark stands for no value. -/
def Use.withValue (flag : Flag) (value : List Char) : Use :=
  { flag := flag, value? := if value = endMark then none else some value }

/-- The options in one argument. The last one may still be without a value. -/
structure Cluster where
  uses : List Use := []
  bare? : Option Flag := none
deriving DecidableEq, Repr

/-- The options in an argument that begins with `flag` and goes on with the given text, which is the
value if the option takes one. -/
def Cluster.ofAttached (flag : Flag) (short : Bool) (text : List Char) :
    Except ArgumentFault Cluster :=
  match flag.arity with
  | .one | .atMostOne => .ok { uses := [Use.withValue flag text] }
  | .none =>
    match text, short with
    | [], _ | _, false => .error (.surplusValue flag text)
    | letter :: rest, true =>
      match Flag.ofSpelling? ['-', letter] with
      | none => .error (.surplusValue flag text)
      | some next =>
        if rest.isEmpty then .ok { uses := [{ flag := flag }], bare? := some next }
        else
          (ofAttached next true rest).map fun cluster =>
            { cluster with uses := { flag := flag } :: cluster.uses }

/-- The options in an argument. -/
def Cluster.ofFlag (flag : Flag) (short : Bool) :
    Option (List Char) → Except ArgumentFault Cluster
  | none => .ok { bare? := some flag }
  | some text => ofAttached flag short text

/-- How far the reading of the arguments has come. -/
structure Reading where
  options : Options := {}
  /-- The name of the source was found. -/
  named : Bool := false
  /-- The last argument was the name of the source. -/
  nameLast : Bool := false
  /-- Options that take effect as soon as the last of them has its value. -/
  waiting? : Option (List Use × Flag) := none
  /-- The arguments that belong to nothing. -/
  extras : List (List Char) := []
deriving DecidableEq, Repr

namespace Reading

/-- Options take effect in order. -/
def setAll (reading : Reading) (uses : List Use) : Except Interruption Reading :=
  let set (options : Options) (use : Use) := options.set use.flag use.value?
  (uses.foldlM set reading.options).map fun options =>
    { reading with options := options, waiting? := none }

/-- No value comes for the option that waits for one. -/
def settle (reading : Reading) : Except Interruption Reading :=
  match reading.waiting? with
  | none => .ok reading
  | some (uses, last) =>
    if last.arity = .one then .error (.fault (.missingValue last))
    else reading.setAll (uses ++ [{ flag := last }])

/-- A plain text that is no value names the source, unless that is already named. -/
def takeText (reading : Reading) (text : List Char) : Reading :=
  if reading.named then { reading with nameLast := false, extras := reading.extras ++ [text] }
  else
    { reading with
      options := { reading.options with name? := some text }
      named := true
      nameLast := true }

/-- The end mark belongs to the name if that stands directly before it or comes after it. -/
def takeMark (reading : Reading) : Reading :=
  if reading.named && !reading.nameLast then
    { reading with extras := reading.extras ++ [endMark] }
  else { reading with nameLast := false }

/-- Reads the options in an argument. -/
def takeCluster (reading : Reading) (cluster : Cluster) : Except Interruption Reading :=
  match cluster.bare? with
  | none => reading.setAll cluster.uses
  | some last =>
    if last.arity = .none then reading.setAll (cluster.uses ++ [{ flag := last }])
    else .ok { reading with waiting? := some (cluster.uses, last) }

/-- Reads an argument for which no option waits. -/
def take (reading : Reading) (argument : Argument) : Except Interruption Reading :=
  match argument.shape with
  | .plain => .ok (reading.takeText argument.text)
  | .endMark => .ok reading.takeMark
  | .unknown =>
    .ok { reading with nameLast := false, extras := reading.extras ++ [argument.text] }
  | .flag flag short attached? =>
    match Cluster.ofFlag flag short attached? with
    | .ok cluster => takeCluster { reading with nameLast := false } cluster
    | .error fault => .error (.fault fault)

/-- Reads an argument. If it is plain and an option waits for its value, it is that value. -/
def step (reading : Reading) (argument : Argument) : Except Interruption Reading :=
  match reading.waiting?, argument.shape with
  | some (uses, last), .plain => reading.setAll (uses ++ [Use.withValue last argument.text])
  | _, _ => reading.settle.bind fun settled => settled.take argument

end Reading

/-- The options in the arguments of a command line. -/
def Options.ofArguments (arguments : List (List Char)) : Except Interruption Options :=
  match ((shapes arguments).foldlM Reading.step {}).bind Reading.settle with
  | .error interruption => .error interruption
  | .ok reading =>
    if reading.extras.isEmpty then .ok reading.options
    else .error (.fault (.unrecognized reading.extras))

end CListing.CommandLine
