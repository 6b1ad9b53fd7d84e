import CListing.CommandLine.FilePath

/-!
# File trees

The files below and beside the working directory, by their locations. A location is a list of
names from the working directory on; one that leaves it begins with double points or with the root.
Opening a file follows its path from directory to directory. Opening it for writing empties it or
creates it; writing starts at its beginning and overwrites what is there.
-/

namespace CListing.CommandLine

/-- Where a file is, as the names on the way to it from the working directory. -/
abbrev Location := List (List Char)

/-- What stands at a location. -/
inductive Node
  | file (bytes : List UInt8)
  | directory
deriving DecidableEq, Repr

/-- Files and directories by their locations. -/
structure FileTree where
  nodes : List (Location × Node) := []
deriving DecidableEq, Repr

/-- Why a file cannot be opened. -/
inductive OpenFault
  | notFound
  | isDirectory
  | notDirectory
  /-- A path must not hold the null character. -/
  | nullCharacter
deriving DecidableEq, Repr

/-- The name of the directory above. -/
def parentName : List Char :=
  ['.', '.']

/-- The root of all files. -/
def rootLocation : Location :=
  [['/']]

namespace FileTree

/-- The directories above the working directory and the root exist in every tree. -/
def isGiven (location : Location) : Bool :=
  location.all (· == parentName) || location == rootLocation

/-- What stands at a location. -/
def node? (tree : FileTree) (location : Location) : Option Node :=
  if isGiven location then some .directory else tree.nodes.lookup location

/-- Puts a node at a location. -/
def put (tree : FileTree) (location : Location) (node : Node) : FileTree where
  nodes := (location, node) :: tree.nodes.filter (·.1 != location)

/-- The bytes of the file at a location, none if there is no file. -/
def bytes (tree : FileTree) (location : Location) : List UInt8 :=
  match tree.node? location with
  | some (.file bytes) => bytes
  | _ => []

/-- The location of the directory above. -/
def parent (location : Location) : Location :=
  if location == rootLocation then rootLocation
  else if location.all (· == parentName) then location ++ [parentName]
  else location.dropLast

/-- Follows the rest of a path from a directory. A path with a slash at its end is one of a
directory, so nothing is created there. -/
def follow (tree : FileTree) (creating : Bool) (here : Location) :
    List (List Char) → Except OpenFault Location
  | [] => .ok here
  | name :: rest =>
    if name.isEmpty || name == ['.'] then follow tree creating here rest
    else if name == parentName then follow tree creating (parent here) rest
    else if rest.isEmpty then .ok (here ++ [name])
    else if creating && rest.all (·.isEmpty) then .error .isDirectory
    else
      match tree.node? (here ++ [name]) with
      | some .directory => follow tree creating (here ++ [name]) rest
      | some (.file _) => .error .notDirectory
      | none => .error .notFound

/-- The location that a path leads to. -/
def locate (tree : FileTree) (creating : Bool) (path : List Char) : Except OpenFault Location :=
  if path.contains '\x00' then .error .nullCharacter
  else
    let start := if FilePath.isAbsolute path then rootLocation else []
    tree.follow creating start (Text.pieces '/' path)

/-- Opens a file for reading. -/
def openForReading (tree : FileTree) (path : List Char) : Except OpenFault Location :=
  match tree.locate false path with
  | .error fault => .error fault
  | .ok location =>
    match tree.node? location with
    | some (.file _) => .ok location
    | some .directory => .error .isDirectory
    | none => .error .notFound

/-- Opens a file for writing, which leaves it empty. -/
def openForWriting (tree : FileTree) (path : List Char) : Except OpenFault (Location × FileTree) :=
  match tree.locate true path with
  | .error fault => .error fault
  | .ok location =>
    match tree.node? location with
    | some .directory => .error .isDirectory
    | _ => .ok (location, tree.put location (.file []))

/-- Writes bytes from the beginning of a file on; what goes beyond them stays. -/
def overwrite (tree : FileTree) (location : Location) (written : List UInt8) : FileTree :=
  tree.put location (.file (written ++ (tree.bytes location).drop written.length))

theorem node?_put_self {tree : FileTree} {location : Location} {node : Node}
    (own : isGiven location = false) : (tree.put location node).node? location = some node := by
  simp [node?, put, own]

/-- Putting a node changes no other location. -/
theorem node?_put_of_ne {tree : FileTree} {location other : Location} {node : Node}
    (different : other ≠ location) : (tree.put location node).node? other = tree.node? other := by
  have apart : (other == location) = false := by simpa using different
  have kept : ∀ nodes : List (Location × Node),
      (nodes.filter (·.1 != location)).lookup other = nodes.lookup other := by
    intro nodes
    induction nodes with
    | nil => rfl
    | cons entry rest ih =>
      obtain ⟨place, found⟩ := entry
      by_cases same : place = location
      · subst same
        simp [List.lookup_cons, apart, ih]
      · by_cases here : (other == place) = true
        · simp [List.lookup_cons, same, here]
        · simp [List.lookup_cons, same, here, ih]
  simp only [node?, put, List.lookup_cons, apart, kept]

/-- A file opened for writing is empty. -/
theorem bytes_openForWriting {tree opened : FileTree} {path : List Char} {location : Location}
    (success : tree.openForWriting path = .ok (location, opened)) : opened.bytes location = [] := by
  unfold openForWriting at success
  split at success
  · contradiction
  · rename_i place found
    split at success
    · contradiction
    · rename_i notDirectory
      simp only [Except.ok.injEq, Prod.mk.injEq] at success
      obtain ⟨rfl, rfl⟩ := success
      cases given : isGiven place with
      | true => exact absurd (by simp [node?, given]) notDirectory
      | false => simp [bytes, node?_put_self given]

end FileTree

end CListing.CommandLine
