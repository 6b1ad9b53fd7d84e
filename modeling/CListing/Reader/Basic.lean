import CListing.Listing.Command
import CListing.Scan.Basic
import CListing.Source.Basic

/-!
# Readers

A reader stands at a place in the text of a source and counts its lines. It holds one character of
read-ahead, so the fault that ends a source is noted as soon as the character after the current one
is missing. Fetching a token passes over blanks, comments and directives; the lines of the
directives go to the listing. The end of the text can be fetched again and again.
-/

namespace CListing

/-- What fetching a token brings about. -/
structure Fetch where
  token : Token
  /-- The spacing that the spelling of the token fixes, if it does. -/
  spacing? : Option Spacing := none
  /-- The directives that go to the listing before the token. -/
  script : List Command := []
  /-- What goes to the log. -/
  notes : List Note := []
deriving DecidableEq, Repr

namespace Fetch

/-- What goes to the listing: the directives, and at the end of the source the pending line. -/
def commands (fetch : Fetch) : List Command :=
  fetch.script ++ if fetch.token.category = .endOfFile then [.endLine false] else []

/-- The same fetch after others whose token does not count. -/
def after (fetch : Fetch) (script : List Command) (notes : List Note) : Fetch :=
  { fetch with script := script ++ fetch.script, notes := notes ++ fetch.notes }

end Fetch

/-- A place in the text of a source. -/
structure Reader where
  /-- The current character and all after it. -/
  chars : List Char
  /-- The line of the current character, counted from one. -/
  line : Nat := 1
  /-- The note about the end of the source, if it is still to be made. -/
  fault? : Option Note := none
deriving DecidableEq, Repr

namespace Reader

/-- Makes the note about the end of the source if the read-ahead has come to it. -/
def notice (reader : Reader) : Reader × List Note :=
  match reader.chars with
  | _ :: _ :: _ => (reader, [])
  | _ => ({ reader with fault? := none }, reader.fault?.toList)

/-- The reader at the beginning of a source, with the notes made so far. -/
def ofSource (source : Source) : Reader × List Note :=
  notice { chars := source.text, fault? := source.faultNote? }

/-- Goes over a cut. -/
def take (reader : Reader) (cut : Cut) : Reader × List Note :=
  notice { reader with chars := cut.rest, line := reader.line + cut.extent.count '\n' }

/-- Goes over the blanks at the current place. -/
def skipBlanks (reader : Reader) : Reader × List Note :=
  reader.take (Cut.span Unicode.isBlank reader.chars)

/-- Goes over one character, if there is one. -/
def step (reader : Reader) : Reader × List Note :=
  reader.take { extent := reader.chars.take 1, rest := reader.chars.drop 1 }

/-- A directive ends the pending line and is written line by line; no other piece writes
anything. -/
def scriptOf (scan : Scan) : List Command :=
  if scan.category = .directive then .endLine false :: scan.lines.map .directive else []

/-- The note about a piece that begins in the given line and lacks its closing mark. -/
def noteOf (line : Nat) (scan : Scan) : List Note :=
  if scan.closed then []
  else if scan.category = .comment then [.unterminatedComment line]
  else [.unterminatedLiteral line]

/-- Fetches the next piece after the blanks, even if it is a comment or a directive. -/
def scan (reader : Reader) : Fetch × Reader :=
  let (atPiece, blankNotes) := reader.skipBlanks
  let piece := Scan.ofText atPiece.chars
  let (afterPiece, pieceNotes) := atPiece.take { extent := piece.extent, rest := piece.rest }
  let fetch : Fetch :=
    { token := { category := piece.category, lexeme := piece.lexeme, line := atPiece.line }
      spacing? := piece.spacing?
      script := scriptOf piece
      notes := blankNotes ++ pieceNotes ++ noteOf atPiece.line piece }
  (fetch, afterPiece)

/-- Fetches the next token, passing over at most as many comments and directives as `credit` has
characters. -/
def fetchWithin : List Char → Reader → Fetch × Reader
  | [], reader => reader.scan
  | _ :: credit, reader =>
    let (first, next) := reader.scan
    if first.token.category.isPassedOver then
      let (fetch, last) := fetchWithin credit next
      (fetch.after first.script first.notes, last)
    else (first, next)

/-- Fetches the next token. Each comment and each directive takes up a character of the text, so
the text itself is credit enough. -/
def fetch (reader : Reader) : Fetch × Reader :=
  fetchWithin reader.chars reader

end Reader

end CListing
