import CListing.CommandLine.Session

/-!
# The program

The outer layer: what is on the disk is read into a file tree as far as the paths of the session
lead, the session is run, and what it changed is written back. All decisions are the session's.
-/

namespace CListing.Main

open CommandLine

/-- The path of a location. -/
def pathOf (location : Location) : String :=
  match location with
  | ['/'] :: names => "/" ++ String.ofList (Text.joined '/' names)
  | names => String.ofList (Text.joined '/' names)

/-- What stands at a path on the disk. -/
def nodeAt? (path : String) : IO (Option Node) := do
  try
    let content ← IO.FS.readBinFile path
    return some (.file content.toList)
  catch
    | .noFileOrDirectory .. => return none
    | .inappropriateType .. => return some .directory
    | error => throw error

/-- Adds what a path leads through to the tree, from the directory `here` on. -/
def mountFrom (tree : FileTree) (here : Location) : List (List Char) → IO FileTree
  | [] => return tree
  | name :: rest => do
    if name.isEmpty || name == ['.'] then mountFrom tree here rest
    else if name == parentName then mountFrom tree (FileTree.parent here) rest
    else
      let location := here ++ [name]
      match ← nodeAt? (pathOf location) with
      | none => return tree
      | some node => mountFrom (tree.put location node) location rest

/-- Adds what a path leads through to the tree. -/
def mount (tree : FileTree) (path : List Char) : IO FileTree :=
  if path.contains '\x00' then return tree
  else mountFrom tree (if FilePath.isAbsolute path then rootLocation else []) (Text.pieces '/' path)

/-- The paths of a session about the source with the given name. -/
def pathsOf (options : Options) (name : List Char) : List (List Char) :=
  let listing :=
    match options.destination name with
    | .standardOutput => []
    | .file path => [path]
  sourcePath name :: (given? options.log?).toList ++ listing

/-- The answer to the question for the name of the source. -/
def ask : IO (List Char) := do
  IO.print promptText
  (← IO.getStdout).flush
  return (← (← IO.getStdin).getLine).toList

/-- The name of the source: from the options, else from the first line typed. -/
def nameOf? (options : Options) (typed : List Char) : Option (List Char) :=
  match given? options.name? with
  | some name => some name
  | none =>
    match Reply.ofInput (some typed) with
    | .line text => given? (some text)
    | _ => none

/-- Writes the files of a tree that differ from what they were. -/
def commit (before after : FileTree) : IO Unit :=
  after.nodes.forM fun (location, node) => do
    match node with
    | .file content =>
      if before.node? location != some node then
        IO.FS.writeBinFile (pathOf location) ⟨content.toArray⟩
    | .directory => return

/-- Runs a session on the disk. -/
def runOnDisk (arguments : List String) : IO UInt32 := do
  let texts := arguments.map (·.toList)
  let options := (Options.ofArguments texts).toOption
  let asked := options.any fun chosen => (given? chosen.name?).isNone
  let typed ← if asked then ask else pure []
  let paths := (options.bind fun chosen => (nameOf? chosen typed).map (pathsOf chosen)).getD []
  let before ← paths.foldlM mount {}
  match run texts (some typed) before with
  | none =>
    IO.eprintln "the source has no end"
    return 1
  | some outcome =>
    let printed := if asked then outcome.stdout.drop promptText.length else outcome.stdout.toSlice
    commit before outcome.files
    IO.print printed
    IO.eprint outcome.stderr
    match outcome.ending with
    | .exit status => return status.toUInt32
    | .crash crash =>
      IO.eprintln crash.message
      return 1

end CListing.Main

/-- The program. -/
def main (arguments : List String) : IO UInt32 :=
  CListing.Main.runOnDisk arguments
