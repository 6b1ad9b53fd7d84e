import CListing.Text.Pieces

/-!
# File paths

A path is a text whose components stand between slashes. The normal form drops empty components and
single points, but keeps double points, since the directory before them may not be what it seems.
Two slashes at the beginning, and no more, are kept as they are.
-/

namespace CListing.CommandLine.FilePath

/-- The components of a path that name something. -/
def components (path : List Char) : List (List Char) :=
  (Text.pieces '/' path).filter fun piece => !piece.isEmpty && piece != ['.']

/-- The slashes at the beginning of a path in normal form. -/
def root : List Char → List Char
  | '/' :: '/' :: '/' :: _ => ['/']
  | '/' :: '/' :: _ => ['/', '/']
  | '/' :: _ => ['/']
  | _ => []

/-- The normal form of a path. -/
def normalized (path : List Char) : List Char :=
  match root path ++ Text.joined '/' (components path) with
  | [] => ['.']
  | text => text

/-- The last component of a path, which is empty if nothing is named. -/
def lastName (path : List Char) : List Char :=
  (components path).getLast?.getD []

/-- The path starts at the root of all files. -/
def isAbsolute (path : List Char) : Bool :=
  path.head? = some '/'

end CListing.CommandLine.FilePath
