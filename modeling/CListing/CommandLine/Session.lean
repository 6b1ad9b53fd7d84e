import CListing.CommandLine.Arguments
import CListing.CommandLine.FileTree
import CListing.CommandLine.Usage
import CListing.Reformat
import CListing.Statistics

/-!
# Sessions

A session is one call of the program: arguments, what is typed, and the files at the beginning; and
at the end the way it ended, what it printed, and the files. The files are opened in a fixed order:
the log, the source, the listing. The first and the last are emptied when they are opened, and the
source is read after that, so a source that is also the log or the listing is read as empty. The log
is written last, over what the file holds by then.
-/

namespace CListing.CommandLine

/-- Why a session breaks off without an exit status. -/
inductive Crash
  /-- There was no answer to the prompt. -/
  | endOfInput
  /-- The path leads to a directory. -/
  | isDirectory (path : List Char)
  /-- The path leads through a file. -/
  | notDirectory (path : List Char)
  /-- The path holds the null character. -/
  | nullCharacter
  /-- A measure has no value. -/
  | noValue
deriving DecidableEq, Repr

/-- The wording of a crash. -/
def Crash.message : Crash → String
  | endOfInput => "EOF when reading a line"
  | isDirectory path => "[Errno 21] Is a directory: " ++ quotedString path
  | notDirectory path => "[Errno 20] Not a directory: " ++ quotedString path
  | nullCharacter => "embedded null byte"
  | noValue => "'<' not supported between instances of 'list' and 'int'"

/-- How a session ends. -/
inductive Ending
  | exit (status : Nat)
  | crash (crash : Crash)
deriving DecidableEq, Repr

/-- What a session leaves behind. -/
structure Outcome where
  ending : Ending
  stdout : String := ""
  stderr : String := ""
  files : FileTree
deriving DecidableEq, Repr

/-- Where the listing goes. -/
inductive Destination
  | standardOutput
  | file (path : List Char)
deriving DecidableEq, Repr

/-- A text that was given and is not empty. -/
def given? (text? : Option (List Char)) : Option (List Char) :=
  text?.filter (!·.isEmpty)

/-- The path of the source with the given name. -/
def sourcePath (name : List Char) : List Char :=
  FilePath.normalized (name ++ ".c".toList)

/-- Where the listing of the source with the given name goes. -/
def Options.destination (options : Options) (name : List Char) : Destination :=
  match given? options.out? with
  | none => .file (FilePath.normalized (name ++ "_.c".toList))
  | some path => if path = ['-'] then .standardOutput else .file path

namespace Outcome

/-- The session ends because a file cannot be opened. A file that is not there is reported; the
other faults are not foreseen. -/
def ofOpenFault (files : FileTree) (path : List Char) : OpenFault → Outcome
  | .notFound =>
    { ending := .exit 1
      stderr := "ERROR: No such file or directory: " ++ String.ofList path ++ "\n"
      files := files }
  | .isDirectory => { ending := .crash (.isDirectory path), files := files }
  | .notDirectory => { ending := .crash (.notDirectory path), files := files }
  | .nullCharacter => { ending := .crash .nullCharacter, files := files }

/-- What was printed before goes in front. -/
def afterStdout (printed : String) (outcome : Outcome) : Outcome :=
  { outcome with stdout := printed ++ outcome.stdout }

end Outcome

/-- The files of a session once they are open. -/
structure OpenFiles where
  files : FileTree
  source : Location
  /-- The log, unless it goes to the standard error output. -/
  log? : Option Location
  /-- The listing, unless it goes to the standard output. -/
  listing? : Option Location
deriving DecidableEq, Repr

/-- Opens the log, if one was named. -/
def openLog (options : Options) (files : FileTree) : Except Outcome (Option Location × FileTree) :=
  match given? options.log? with
  | none => .ok (none, files)
  | some path =>
    match files.openForWriting path with
    | .ok (location, opened) => .ok (some location, opened)
    | .error fault => .error (Outcome.ofOpenFault files path fault)

/-- Opens the listing, if it goes to a file. -/
def openListing (destination : Destination) (files : FileTree) :
    Except Outcome (Option Location × FileTree) :=
  match destination with
  | .standardOutput => .ok (none, files)
  | .file path =>
    match files.openForWriting path with
    | .ok (location, opened) => .ok (some location, opened)
    | .error fault => .error (Outcome.ofOpenFault files path fault)

/-- Opens the log, the source and the listing. -/
def openFiles (options : Options) (name : List Char) (files : FileTree) :
    Except Outcome OpenFiles :=
  match openLog options files with
  | .error outcome => .error outcome
  | .ok (log?, withLog) =>
    match withLog.openForReading (sourcePath name) with
    | .error fault => .error (Outcome.ofOpenFault withLog (sourcePath name) fault)
    | .ok source =>
      match openListing (options.destination name) withLog with
      | .error outcome => .error outcome
      | .ok (listing?, opened) =>
        .ok { files := opened, source := source, log? := log?, listing? := listing? }

/-- A line of the log about a source. -/
def logLine (source : List Char) (message : String) : String :=
  "File " ++ String.ofList source ++ ": " ++ message ++ "\n"

/-- The log about a source: its notes, and the statistics on demand. -/
def logText (options : Options) (source : List Char) (formatted : Formatted) : String :=
  let listing := formatted.listing
  let noteLines := formatted.notes.map fun note => logLine source note.message
  let statistics :=
    if options.wantsStatistics then
      logLine source
        (toString listing.linesWritten ++ " lines written in " ++
          toString listing.pagesWritten ++ " pages") ++
        listingStatistics listing.linesWritten listing.pagesWritten ++
        walkStatistics formatted.functions formatted.missing
    else ""
  String.join noteLines ++ statistics

/-- What is said about the progress of a session. -/
def progressText (options : Options) (source : List Char) (listing? : Option Location) : String :=
  if options.quiet || listing?.isNone then ""
  else "Formatting: " ++ String.ofList source ++ "\n"

/-- Writes a text to a file, if it goes to one. -/
def writeTo (location? : Option Location) (text : List Char) (files : FileTree) : FileTree :=
  match location? with
  | none => files
  | some location => files.overwrite location (Utf8.encode text)

/-- The end of a session that has come to a listing. -/
def finish (options : Options) (source : List Char) (opened : OpenFiles) (formatted : Formatted) :
    Outcome :=
  let listing := formatted.listing.render
  let log := logText options source formatted
  { ending := .exit 0
    stdout := if opened.listing?.isNone then String.ofList listing else ""
    stderr :=
      progressText options source opened.listing? ++ if opened.log?.isNone then log else ""
    files := writeTo opened.log? log.toList (writeTo opened.listing? listing opened.files) }

/-- Makes the listing of the source with the given name. There is no outcome if the reader never
comes to the end of the source. -/
def listSource (options : Options) (layout : Layout) (name : List Char) (files : FileTree) :
    Option Outcome :=
  match openFiles options name files with
  | .error outcome => some outcome
  | .ok opened =>
    let source := Source.ofBytes (opened.files.bytes opened.source)
    let settings : Settings := { layout := layout, traced := options.traced }
    (Formatted.ofSource? settings (FilePath.lastName name) source).map
      (finish options (sourcePath name) opened)

/-- Goes on once the name of the source is known. The measures are looked at before any file is
touched. -/
def runNamed (options : Options) (name : List Char) (files : FileTree) : Option Outcome :=
  match options.layout? with
  | .error (.fault fault) =>
    some { ending := .exit 128, stderr := "ERROR: " ++ fault.message ++ "\n", files := files }
  | .error .noValue => some { ending := .crash .noValue, files := files }
  | .ok layout => listSource options layout name files

/-- What becomes of the question for the name of the source. -/
inductive Reply
  /-- The user broke off. -/
  | interrupted
  /-- There was nothing more to read. -/
  | exhausted
  /-- The first line of the input, without the blanks around it. -/
  | line (text : List Char)
deriving DecidableEq, Repr

/-- The reply in an input, which is absent if the user breaks off. -/
def Reply.ofInput : Option (List Char) → Reply
  | none => .interrupted
  | some [] => .exhausted
  | some input => .line (Text.trim (input.takeWhile (· ≠ '\n')))

/-- Goes on with the reply to the question for the name. -/
def runReply (options : Options) (files : FileTree) : Reply → Option Outcome
  | .interrupted => some { ending := .exit 130, files := files }
  | .exhausted => some { ending := .crash .endOfInput, files := files }
  | .line [] => some { ending := .exit 1, stderr := usageText, files := files }
  | .line name => runNamed options name files

/-- Goes on with the options: asks for the name of the source if none was given. -/
def runOptions (options : Options) (input? : Option (List Char)) (files : FileTree) :
    Option Outcome :=
  match given? options.name? with
  | some name => runNamed options name files
  | none =>
    (runReply options files (Reply.ofInput input?)).map (Outcome.afterStdout promptText)

/-- A call of the program with the given arguments. -/
def run (arguments : List (List Char)) (input? : Option (List Char)) (files : FileTree) :
    Option Outcome :=
  match Options.ofArguments arguments with
  | .error .help => some { ending := .exit 0, stdout := helpText, files := files }
  | .error .version => some { ending := .exit 0, stdout := versionText, files := files }
  | .error (.fault fault) =>
    some {
      ending := .exit 2
      stderr := usageText ++ programName ++ ": error: " ++ fault.message ++ "\n"
      files := files }
  | .ok options => runOptions options input? files

end CListing.CommandLine
