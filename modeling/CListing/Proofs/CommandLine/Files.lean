import CListing.CommandLine.Session

/-!
# Opening files

A path is followed through directories only, so it leads to the same place whatever files have been
emptied or created in the meantime. The files of a session are therefore found where they were at
its beginning; opening them empties the log and the listing, and changes nothing else.
-/

namespace CListing.CommandLine

namespace FileTree

variable {tree opened : FileTree} {path : List Char} {place location : Location}

theorem isGiven_eq_false (noDirectory : tree.node? location ≠ some .directory) :
    isGiven location = false := by
  rw [node?] at noDirectory
  cases given : isGiven location with
  | true => simp [given] at noDirectory
  | false => rfl

/-- A file in the place of no directory blocks no way and opens none. -/
theorem follow_put_iff (noDirectory : tree.node? place ≠ some .directory) {bytes : List UInt8}
    {creating : Bool} {here : Location} {names : List (List Char)} :
    (tree.put place (.file bytes)).follow creating here names = .ok location ↔
      tree.follow creating here names = .ok location := by
  have own := isGiven_eq_false noDirectory
  induction names generalizing here with
  | nil => rfl
  | cons name rest ih =>
    rw [follow, follow]
    split
    · exact ih
    split
    · exact ih
    split
    · rfl
    split
    · rfl
    by_cases same : here ++ [name] = place
    · rw [same, node?_put_self own]
      cases found : tree.node? place with
      | none => simp
      | some node =>
        cases node with
        | file old => simp
        | directory => exact absurd found noDirectory
    · rw [node?_put_of_ne same]
      cases tree.node? (here ++ [name]) with
      | none => rfl
      | some node =>
        cases node with
        | file old => rfl
        | directory => exact ih

theorem locate_put_iff (noDirectory : tree.node? place ≠ some .directory) {bytes : List UInt8}
    {creating : Bool} :
    (tree.put place (.file bytes)).locate creating path = .ok location ↔
      tree.locate creating path = .ok location := by
  rw [locate, locate]
  split
  · rfl
  · exact follow_put_iff noDirectory

theorem openForReading_eq_ok_iff :
    tree.openForReading path = .ok location ↔
      tree.locate false path = .ok location ∧
        ∃ content, tree.node? location = some (.file content) := by
  rw [openForReading]
  cases tree.locate false path with
  | error fault => simp
  | ok found =>
    dsimp only
    constructor
    · intro success
      split at success
      · rename_i content file
        obtain rfl := Except.ok.inj success
        exact ⟨rfl, content, file⟩
      all_goals contradiction
    · rintro ⟨same, content, file⟩
      obtain rfl := Except.ok.inj same
      rw [file]

theorem openForWriting_eq_ok_iff :
    tree.openForWriting path = .ok (location, opened) ↔
      tree.locate true path = .ok location ∧ tree.node? location ≠ some .directory ∧
        opened = tree.put location (.file []) := by
  rw [openForWriting]
  cases tree.locate true path with
  | error fault => simp
  | ok found =>
    dsimp only
    constructor
    · intro success
      split at success
      · contradiction
      · rename_i noDirectory
        obtain ⟨rfl, rfl⟩ := Prod.mk.inj (Except.ok.inj success)
        exact ⟨rfl, noDirectory, rfl⟩
    · rintro ⟨same, noDirectory, rfl⟩
      obtain rfl := Except.ok.inj same
      split
      · contradiction
      · rfl

end FileTree

/-- Opens a file for writing, if there is one. -/
def openTarget (path? : Option (List Char)) (files : FileTree) :
    Except Outcome (Option Location × FileTree) :=
  match path? with
  | none => .ok (none, files)
  | some path =>
    match files.openForWriting path with
    | .ok (location, opened) => .ok (some location, opened)
    | .error fault => .error (Outcome.ofOpenFault files path fault)

/-- The path of the listing, unless it goes to the standard output. -/
def Destination.path? : Destination → Option (List Char)
  | .standardOutput => none
  | .file path => some path

/-- A file to be written is found and emptied, if there is one. -/
inductive Emptied (files : FileTree) : Option (List Char) → Option Location → FileTree → Prop
  | nothing : Emptied files none none files
  | file {path : List Char} {location : Location} (located : files.locate true path = .ok location)
      (noDirectory : files.node? location ≠ some .directory) :
      Emptied files (some path) (some location) (files.put location (.file []))

/-- The session has failed without touching the files. -/
structure Outcome.Refuses (outcome : Outcome) (files : FileTree) : Prop where
  failed : outcome.ending ≠ .exit 0
  untouched : outcome.files = files

variable {files after : FileTree} {path? : Option (List Char)} {location? : Option Location}
variable {outcome : Outcome}

theorem openListing_eq (destination : Destination) (files : FileTree) :
    openListing destination files = openTarget destination.path? files := by
  cases destination <;> rfl

theorem emptied_of_openTarget (success : openTarget path? files = .ok (location?, after)) :
    Emptied files path? location? after := by
  cases path? with
  | none =>
    obtain ⟨rfl, rfl⟩ := Prod.mk.inj (Except.ok.inj success)
    exact Emptied.nothing
  | some path =>
    rw [openTarget] at success
    split at success
    · rename_i location opened opens
      obtain ⟨rfl, rfl⟩ := Prod.mk.inj (Except.ok.inj success)
      obtain ⟨located, noDirectory, rfl⟩ := FileTree.openForWriting_eq_ok_iff.mp opens
      exact Emptied.file located noDirectory
    · contradiction

theorem refuses_ofOpenFault (files : FileTree) (path : List Char) (fault : OpenFault) :
    (Outcome.ofOpenFault files path fault).Refuses files := by
  cases fault <;> exact ⟨by simp [Outcome.ofOpenFault], rfl⟩

theorem refuses_of_openTarget (failure : openTarget path? files = .error outcome) :
    outcome.Refuses files := by
  cases path? with
  | none => contradiction
  | some path =>
    rw [openTarget] at failure
    split at failure
    · contradiction
    · obtain rfl := Except.error.inj failure
      exact refuses_ofOpenFault _ _ _

end CListing.CommandLine
