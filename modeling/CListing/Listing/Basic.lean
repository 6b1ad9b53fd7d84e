import CListing.Listing.Command
import CListing.Listing.Heading
import CListing.Text.Trim

/-!
# Listings

A listing is a sequence of lines in pages, together with the line that is being filled. Each line
remembers what it was written for. A page begins with its heading, which is written only when the
first line of the page is. The pending line is written when the next lexeme would not fit, when it
is ended, or when a directive comes.
-/

namespace CListing

/-- What a line of a listing was written for. -/
inductive Line.Origin
  /-- The heading of the page with the given number. -/
  | heading (number : Nat)
  /-- Lexemes that were appended. -/
  | code
  /-- An empty line between parts. -/
  | gap
  /-- A line of a directive. -/
  | directive
  /-- A report on what is missing. -/
  | report
  /-- A text written as it was given. -/
  | plain
deriving DecidableEq, Repr

/-- A line of a listing. -/
structure Line where
  origin : Line.Origin
  text : List Char
deriving DecidableEq, Repr

/-- The line is a page heading. -/
def Line.isHeading (line : Line) : Bool :=
  match line.origin with
  | .heading _ => true
  | _ => false

/-- A listing in the making. -/
structure Listing where
  layout : Layout
  /-- The name in the headings. -/
  name : List Char
  lines : Array Line := #[]
  /-- The line that is being filled. -/
  pending : List Char := []
  /-- The columns before a line, negative after more steps out than in. -/
  indentation : Int := 0
  /-- The number of the next page. -/
  nextPage : Nat := 1
  /-- The lines on the current page. A full page is left at the next line. -/
  linesOnPage : Int
  /-- The lines written, headings not counted. -/
  linesWritten : Nat := 0
deriving DecidableEq, Repr

namespace Listing

/-- The listing before its first line. The first line begins a page. -/
def blank (layout : Layout) (name : List Char) : Listing where
  layout := layout
  name := name
  linesOnPage := layout.linesPerPage

/-- The name as it stands in the headings. -/
def headingField (listing : Listing) : List Char :=
  Heading.paddedName listing.name listing.layout.headingWidth

/-- The number of pages begun. -/
def pagesWritten (listing : Listing) : Nat :=
  listing.nextPage - 1

/-- Begins a page. -/
def newPage (listing : Listing) : Listing :=
  let text := Heading.text listing.name listing.layout.headingWidth listing.nextPage
  { listing with
    lines := listing.lines.push { origin := .heading listing.nextPage, text := text }
    nextPage := listing.nextPage + 1
    linesOnPage := 0 }

/-- Begins a page if the current one is full. -/
def makeRoom (listing : Listing) : Listing :=
  if listing.layout.linesPerPage ≤ listing.linesOnPage then listing.newPage else listing

/-- The blanks before a line at the current depth. -/
def indentText (listing : Listing) : List Char :=
  spaces (max listing.indentation 0)

/-- The text as it stands in a line: without blanks at its end, and after the margin and the
indentation unless it is empty. -/
def lineText (listing : Listing) (text : List Char) (indented : Bool) : List Char :=
  match Text.trimEnd text with
  | [] => []
  | kept =>
    spaces listing.layout.leftMargin ++ (if indented then listing.indentText else []) ++ kept

/-- Writes a line. -/
def writeLine (listing : Listing) (origin : Line.Origin) (text : List Char) (indented : Bool) :
    Listing :=
  let listing := listing.makeRoom
  { listing with
    lines := listing.lines.push { origin := origin, text := listing.lineText text indented }
    linesOnPage := listing.linesOnPage + 1
    linesWritten := listing.linesWritten + 1 }

/-- Writes the pending line. -/
def flush (listing : Listing) : Listing :=
  { listing.writeLine .code listing.pending true with pending := [] }

/-- Writes the pending line unless it is empty. -/
def flushAny (listing : Listing) : Listing :=
  if listing.pending.isEmpty then listing else listing.flush

/-- The pending line and the lexeme together are too long for a line. -/
def overflows (listing : Listing) (lexeme : List Char) : Bool :=
  listing.layout.lineWidth <
    listing.layout.leftMargin + max listing.indentation 0 + listing.pending.length + lexeme.length

/-- The pending line without the separating blank at its end. -/
def dropSeparator (listing : Listing) : Listing :=
  if listing.pending.getLast? = some ' ' then
    { listing with pending := listing.pending.dropLast }
  else listing

/-- Adds a lexeme to the pending line, after writing that line if the lexeme does not fit. -/
def append (listing : Listing) (lexeme : List Char) (spacing : Spacing) : Listing :=
  let listing := if spacing.joinsLeft then listing.dropSeparator else listing
  let listing :=
    if !listing.pending.isEmpty && listing.overflows lexeme then listing.flush else listing
  let separator := if spacing.joinsRight then [] else [' ']
  { listing with pending := listing.pending ++ lexeme ++ separator }

/-- Ends the pending line; if forced, the next line stands at the head of a page. -/
def endLine (listing : Listing) (forced : Bool) : Listing :=
  let listing := if forced && 0 < listing.linesOnPage then listing.newPage else listing
  listing.flushAny

/-- Carries out a command. -/
def apply (listing : Listing) : Command → Listing
  | .append lexeme spacing => listing.append lexeme spacing
  | .indent => { listing with indentation := listing.indentation + listing.layout.indentSize }
  | .unindent => { listing with indentation := listing.indentation - listing.layout.indentSize }
  | .endLine forced => listing.endLine forced
  | .skipLine => (listing.endLine false).writeLine .gap [] true
  | .newPage => listing.newPage
  | .endPage => { listing with linesOnPage := listing.layout.linesPerPage }
  | .directive text => (listing.endLine false).writeLine .directive text false
  | .report text => listing.writeLine .report text false
  | .write text indented => listing.writeLine .plain text indented

/-- Carries out commands in order. -/
def run (listing : Listing) (script : List Command) : Listing :=
  script.foldl apply listing

/-- The text of lines, each ended by a line feed. -/
def renderLines (lines : List Line) : List Char :=
  lines.flatMap fun line => line.text ++ ['\n']

/-- The text of the listing. The pending line does not belong to it. -/
def render (listing : Listing) : List Char :=
  renderLines listing.lines.toList

@[simp]
theorem run_nil (listing : Listing) : listing.run [] = listing :=
  rfl

@[simp]
theorem run_cons (listing : Listing) (command : Command) (script : List Command) :
    listing.run (command :: script) = (listing.apply command).run script :=
  rfl

/-- Scripts are carried out one after the other. -/
theorem run_append (listing : Listing) (first second : List Command) :
    listing.run (first ++ second) = (listing.run first).run second :=
  List.foldl_append

end Listing

end CListing
