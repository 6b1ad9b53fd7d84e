import CListing.Listing.Heading
import CListing.Note

/-!
# Sources

A source comes in lines of bytes. It is read up to the first line that is not UTF-8, or up to the
point where no further line can be read; that fault is kept beside the lines before it. Headings of
an earlier listing are no part of the source: only their line feed remains, so that the lines keep
their numbers.
-/

namespace CListing

/-- A source as far as it can be read. -/
structure Source where
  lines : List (List Char)
  /-- Why there are no further lines, if more were expected. -/
  fault? : Option ReadFault := none
deriving DecidableEq, Repr

namespace Source

/-- The pieces of a list that end right after the elements satisfying the condition. -/
def splitAfter {α : Type} (p : α → Bool) : List α → List (List α)
  | [] => []
  | x :: rest =>
    if p x then [x] :: splitAfter p rest
    else
      match splitAfter p rest with
      | [] => [[x]]
      | line :: lines => (x :: line) :: lines

/-- The source in the given lines of bytes, after which reading may fail. -/
def ofByteLines (failure? : Option ReadFault) : List (List UInt8) → Source
  | [] => { lines := [], fault? := failure? }
  | bytes :: rest =>
    match Utf8.decode bytes with
    | .ok line =>
      let source := ofByteLines failure? rest
      { source with lines := line :: source.lines }
    | .error fault => { lines := [], fault? := some (.undecodable fault) }

/-- The source in the bytes of a file, whose lines end after their line feeds. -/
def ofBytes (bytes : List UInt8) : Source :=
  ofByteLines none (splitAfter (· == 10) bytes)

/-- The source in a text, whose lines end after their line feeds. -/
def ofText (text : List Char) : Source :=
  { lines := splitAfter (· == '\n') text }

/-- A line without a heading: of a heading only the line feed is left. -/
def withoutHeading (line : List Char) : List Char :=
  if Heading.matches? line then
    if line.getLast? = some '\n' then ['\n'] else []
  else line

/-- The text of the source without headings. -/
def text (source : Source) : List Char :=
  source.lines.flatMap withoutHeading

/-- The note about the fault, which names the first line left out. -/
def faultNote? (source : Source) : Option Note :=
  source.fault?.map (Note.readError (source.lines.length + 1))

/-- Cutting into lines loses nothing. -/
theorem flatten_splitAfter {α : Type} (p : α → Bool) (list : List α) :
    (splitAfter p list).flatten = list := by
  induction list with
  | nil => rfl
  | cons x rest ih =>
    by_cases ends : p x = true
    · simp [splitAfter, ends, ih]
    · cases lines : splitAfter p rest with
      | nil =>
        rw [lines] at ih
        simp only [splitAfter, ends, lines]
        simpa using ih
      | cons line more =>
        rw [lines] at ih
        simp only [splitAfter, ends, lines]
        simpa using ih

/-- Encoded lines are read back. -/
theorem ofByteLines_encode (failure? : Option ReadFault) (lines : List (List Char)) :
    ofByteLines failure? (lines.map Utf8.encode) = { lines := lines, fault? := failure? } := by
  induction lines with
  | nil => rfl
  | cons line rest ih => simp [ofByteLines, Utf8.decode_encode, ih]

end Source

end CListing
