/-!
# Usage

The texts that explain the command line.
-/

namespace CListing.CommandLine

/-- The name of the program. -/
def programName : String :=
  "c-reformat"

/-- The answer to a question for the version. -/
def versionText : String :=
  programName ++ " 0.1\n"

/-- How the program is called. -/
def usageText : String :=
  "usage: c-reformat [-h] [--version] [--out OUT_FILE] [--log LOG_FILE] [--quiet]\n" ++
  "                  [--verbose [\x7btokens,stats,all\x7d]] [--indent-size 1...16]\n" ++
  "                  [--line-width LINE_WIDTH] [--page-length PAGE_LENGTH]\n" ++
  "                  [--heading-width HEADING_WIDTH]\n" ++
  "                  [name]\n"

/-- The answer to a question for help. -/
def helpText : String :=
  usageText ++
  "\n" ++
  "Reformat a C source file into indented, paginated listing\n" ++
  "\n" ++
  "positional arguments:\n" ++
  "  name                  Source file name without .c extension; prompted for,\n" ++
  "                        if omitted\n" ++
  "\n" ++
  "options:\n" ++
  "  -h, --help            show this help message and exit\n" ++
  "  --version             show program's version number and exit\n" ++
  "  --out OUT_FILE, -O OUT_FILE\n" ++
  "                        Output file; default to <name>_.c. '-' writes to\n" ++
  "                        stdout\n" ++
  "  --log LOG_FILE        Logfile destination; default to stderr\n" ++
  "  --quiet, -q           Don't print progress messages\n" ++
  "  --verbose [\x7btokens,stats,all\x7d], -v [\x7btokens,stats,all\x7d]\n" ++
  "                        Log verbosity:\n" ++
  "  --indent-size 1...16  Indent size, from 1 to 16, default 4.\n" ++
  "  --line-width LINE_WIDTH\n" ++
  "                        Max output line length, default 78.\n" ++
  "  --page-length PAGE_LENGTH\n" ++
  "                        Lines per page, not counting the heading, default 56.\n" ++
  "  --heading-width HEADING_WIDTH\n" ++
  "                        Width of the file name field in the page heading,\n" ++
  "                        default 70.\n"

/-- The question for the name of the source. -/
def promptText : String :=
  "Enter file name without .c: "

end CListing.CommandLine
