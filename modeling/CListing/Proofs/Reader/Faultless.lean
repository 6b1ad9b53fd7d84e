import CListing.Proofs.Reader.ItemFeed

/-!
# Sources that end with a fault

A source with a fault is read as the same lines are read without it: the fault only brings about one
note, which is made when the read-ahead comes to the end. That may be anywhere in a piece. Along the
whole feed the note is made once.
-/

namespace CListing

open Scan

namespace Note

/-- The note tells of a read error. -/
def isReadError : Note → Bool
  | .readError _ _ => true
  | _ => false

/-- The notes that tell of read errors. -/
def readErrors (notes : List Note) : List Note :=
  notes.filter isReadError

/-- The notes that tell of anything else. -/
def others (notes : List Note) : List Note :=
  notes.filter (!·.isReadError)

@[simp]
theorem readErrors_append (first second : List Note) :
    readErrors (first ++ second) = readErrors first ++ readErrors second :=
  List.filter_append first second

@[simp]
theorem others_append (first second : List Note) :
    others (first ++ second) = others first ++ others second :=
  List.filter_append first second

/-- The only read error stands between the other notes. -/
theorem exists_of_readErrors_eq {notes : List Note} {error : Note}
    (only : readErrors notes = [error]) :
    ∃ before after, notes = before ++ error :: after ∧ others notes = before ++ after := by
  obtain ⟨before, after, rfl, noneBefore, isError, noneAfter⟩ := List.filter_eq_cons_iff.mp only
  refine ⟨before, after, rfl, ?_⟩
  have quietBefore : others before = before :=
    List.filter_eq_self.mpr fun note member => by simpa using noneBefore note member
  have quietAfter : others after = after :=
    List.filter_eq_self.mpr fun note member => by
      simpa using List.filter_eq_nil_iff.mp noneAfter note member
  have dropped : others [error] = [] := by simp [others, isError]
  rw [others_append, ← List.singleton_append, others_append, quietBefore, quietAfter, dropped,
    List.nil_append]

end Note

/-- The fetch without read errors. -/
def Fetch.faultless (fetch : Fetch) : Fetch :=
  { fetch with notes := Note.others fetch.notes }

namespace Reader

/-- The reader of the same text without a fault. -/
def faultless (reader : Reader) : Reader :=
  { reader with fault? := none }

/-- A note still to be made tells of a read error. -/
def AwaitsError (reader : Reader) : Prop :=
  ∀ note ∈ reader.fault?, note.isReadError = true

theorem awaitsError_faultNote (source : Source) :
    AwaitsError { chars := source.text, fault? := source.faultNote? } := by
  intro note made
  obtain ⟨fault, _, rfl⟩ := Option.map_eq_some_iff.mp made
  rfl

/-- Going from one reader to another one with these notes, the read error is noted or still to be
noted. -/
def Passes (reader : Reader) (notes : List Note) (next : Reader) : Prop :=
  Note.readErrors notes ++ next.fault?.toList = reader.fault?.toList

namespace Passes

variable {reader next last : Reader} {notes more : List Note}

theorem awaitsError (passes : Passes reader notes next) (awaits : reader.AwaitsError) :
    next.AwaitsError := by
  intro note left
  have made : note ∈ reader.fault?.toList := by
    rw [← passes]
    exact List.mem_append_right _ (Option.mem_toList.mpr left)
  exact awaits note (Option.mem_toList.mp made)

theorem append (passes : Passes reader notes next) (later : Passes next more last) :
    Passes reader (notes ++ more) last := by
  rw [Passes, Note.readErrors_append, List.append_assoc, later, passes]

end Passes

/-! ## The read-ahead -/

variable {reader : Reader}

theorem notice_faultless (reader : Reader) :
    reader.faultless.notice = (reader.notice.1.faultless, []) := by
  obtain ⟨chars, line, fault⟩ := reader
  unfold notice faultless
  rcases chars with _ | ⟨_, _ | ⟨_, _⟩⟩ <;> rfl

/-- The note is made with no other one. -/
theorem others_notice (awaits : reader.AwaitsError) : Note.others reader.notice.2 = [] := by
  unfold notice
  split
  · rfl
  · exact List.filter_eq_nil_iff.mpr fun note made => by simp [awaits note (by simpa using made)]

theorem passes_notice (awaits : reader.AwaitsError) :
    Passes reader reader.notice.2 reader.notice.1 := by
  unfold Passes notice
  split
  · rfl
  · have errors : Note.readErrors reader.fault?.toList = reader.fault?.toList :=
      List.filter_eq_self.mpr fun note made => awaits note (by simpa using made)
    simp [errors]

/-- A fault is noted before the first character is read, or it has no influence yet. -/
theorem ofSource_faultless (source : Source) :
    ofSource { source with fault? := none } =
      ((ofSource source).1.faultless, Note.others (ofSource source).2) := by
  have plain := notice_faultless { chars := source.text, fault? := source.faultNote? }
  have noOthers : Note.others (ofSource source).2 = [] :=
    others_notice (awaitsError_faultNote source)
  rw [noOthers]
  exact plain

theorem passes_ofSource (source : Source) :
    Note.readErrors (ofSource source).2 ++ (ofSource source).1.fault?.toList =
      source.faultNote?.toList :=
  passes_notice (awaitsError_faultNote source)

theorem awaitsError_ofSource (source : Source) : (ofSource source).1.AwaitsError :=
  (passes_notice (awaitsError_faultNote source)).awaitsError (awaitsError_faultNote source)

theorem take_faultless (reader : Reader) (cut : Cut) :
    reader.faultless.take cut = ((reader.take cut).1.faultless, []) :=
  notice_faultless
    { reader with chars := cut.rest, line := reader.line + cut.extent.count '\n' }

theorem others_take (awaits : reader.AwaitsError) (cut : Cut) :
    Note.others (reader.take cut).2 = [] :=
  others_notice awaits

theorem passes_take (awaits : reader.AwaitsError) (cut : Cut) :
    Passes reader (reader.take cut).2 (reader.take cut).1 := by
  have further : AwaitsError
      { reader with chars := cut.rest, line := reader.line + cut.extent.count '\n' } := awaits
  exact passes_notice further

/-! ## Fetches -/

theorem others_noteOf (line : Nat) (scan : Scan) :
    Note.others (noteOf line scan) = noteOf line scan := by
  unfold noteOf
  split
  · rfl
  · split <;> rfl

theorem readErrors_noteOf (line : Nat) (scan : Scan) :
    Note.readErrors (noteOf line scan) = [] := by
  unfold noteOf
  split
  · rfl
  · split <;> rfl

theorem passes_scan (awaits : reader.AwaitsError) :
    Passes reader reader.scan.1.notes reader.scan.2 := by
  have blanks := passes_take awaits (Cut.span Unicode.isBlank reader.chars)
  have piece := passes_take (blanks.awaitsError awaits)
    { extent := (ofText reader.skipBlanks.1.chars).extent,
      rest := (ofText reader.skipBlanks.1.chars).rest }
  have both := blanks.append piece
  simp only [Passes, scan, Note.readErrors_append, readErrors_noteOf, List.append_nil] at both ⊢
  exact both

theorem scan_faultless (awaits : reader.AwaitsError) :
    reader.faultless.scan = (reader.scan.1.faultless, reader.scan.2.faultless) := by
  have blanks := passes_take awaits (Cut.span Unicode.isBlank reader.chars)
  have noBlankNotes := others_take awaits (Cut.span Unicode.isBlank reader.chars)
  have noPieceNotes := others_take (blanks.awaitsError awaits)
    { extent := (ofText reader.skipBlanks.1.chars).extent,
      rest := (ofText reader.skipBlanks.1.chars).rest }
  have blankless : reader.faultless.skipBlanks = (reader.skipBlanks.1.faultless, []) :=
    take_faultless reader _
  simp only [scan, blankless, take_faultless, Fetch.faultless, Note.others_append, others_noteOf]
  simp only [skipBlanks] at noBlankNotes noPieceNotes ⊢
  rw [noBlankNotes, noPieceNotes]
  rfl

theorem passes_fetchWithin {credit : List Char} (awaits : reader.AwaitsError) :
    Passes reader (fetchWithin credit reader).1.notes (fetchWithin credit reader).2 := by
  induction credit generalizing reader with
  | nil => exact passes_scan awaits
  | cons _ credit ih =>
    have first := passes_scan awaits
    simp only [fetchWithin]
    split
    · exact first.append (ih (first.awaitsError awaits))
    · exact first

theorem fetchWithin_faultless {credit : List Char} (awaits : reader.AwaitsError) :
    fetchWithin credit reader.faultless =
      ((fetchWithin credit reader).1.faultless, (fetchWithin credit reader).2.faultless) := by
  induction credit generalizing reader with
  | nil => exact scan_faultless awaits
  | cons _ credit ih =>
    have later := ih ((passes_scan awaits).awaitsError awaits)
    simp only [fetchWithin, scan_faultless awaits, later]
    by_cases passed : reader.scan.1.token.category.isPassedOver = true
    · simp [passed, Fetch.after, Fetch.faultless]
    · simp [passed, Fetch.faultless]

theorem passes_fetch (awaits : reader.AwaitsError) :
    Passes reader reader.fetch.1.notes reader.fetch.2 :=
  passes_fetchWithin awaits

/-- A fault has no influence on what is fetched, except for the note about it. -/
theorem fetch_faultless (awaits : reader.AwaitsError) :
    reader.faultless.fetch = (reader.fetch.1.faultless, reader.fetch.2.faultless) :=
  fetchWithin_faultless awaits

/-- The read-ahead has come to the end when the end is scanned. -/
theorem fault?_scan_of_endOfFile (last : reader.scan.1.token.category = .endOfFile) :
    reader.scan.2.fault? = none := by
  have blank := category_next_eq_endOfFile_iff.mp ((category_scan reader).symm.trans last)
  have nothing : (ofText reader.skipBlanks.1.chars).rest = [] := by
    rw [chars_skipBlanks, blank]
    rfl
  simp [scan, take, notice, nothing]

theorem fault?_fetch_of_endOfFile (last : reader.fetch.1.token.category = .endOfFile) :
    reader.fetch.2.fault? = none := by
  have within {credit : List Char} {reader : Reader}
      (last : (fetchWithin credit reader).1.token.category = .endOfFile) :
      (fetchWithin credit reader).2.fault? = none := by
    induction credit generalizing reader with
    | nil => exact fault?_scan_of_endOfFile last
    | cons _ credit ih =>
      simp only [fetchWithin] at last ⊢
      split
      · rename_i passed
        rw [if_pos passed] at last
        exact ih last
      · rename_i counts
        rw [if_neg counts] at last
        exact fault?_scan_of_endOfFile last
  exact within last

end Reader

/-! ## Feeds -/

namespace Feed

/-- The feed without read errors. -/
def faultless (feed : Feed) : Feed :=
  { feed with
    ahead := feed.ahead.map Fetch.faultless
    closingNotes := Note.others feed.closingNotes
    size_eq := by rw [List.length_map, feed.size_eq] }

/-- The read errors that the feed brings along. -/
def readErrors (feed : Feed) : List Note :=
  Note.readErrors (feed.ahead.flatMap (·.notes) ++ feed.closingNotes)

theorem fetch_faultless (feed : Feed) :
    feed.faultless.fetch = (feed.fetch.1.faultless, feed.fetch.2.faultless) := by
  obtain ⟨ahead, size, lastLine, closing, closingNotes, size_eq⟩ := feed
  cases ahead <;> rfl

theorem readErrors_cons (first : Fetch) (feed : Feed) :
    (feed.cons first).readErrors = Note.readErrors first.notes ++ feed.readErrors := by
  simp [readErrors, cons]

/-- The read errors of a feed are those of its next fetch, and those of what follows. -/
theorem readErrors_fetch (feed : Feed) :
    feed.readErrors = Note.readErrors feed.fetch.1.notes ++ feed.fetch.2.readErrors := by
  rcases feed.cases_ahead with ⟨empty, _⟩ | ⟨first, rest, rfl⟩
  · rw [fetch_of_ahead_eq_nil empty]
    simp [readErrors, fetchEnd, empty]
    rfl
  · exact readErrors_cons first rest

theorem readErrors_of_quiet {feed : Feed} (quiet : feed.Quiet) : feed.readErrors = [] := by
  have none_ahead : feed.ahead.flatMap (·.notes) = [] :=
    List.flatMap_eq_nil_iff.mpr quiet.1
  rw [readErrors, none_ahead, quiet.2]
  rfl

/-- With a fault or without it, the feed is the same except for the note. -/
theorem ofReaderWithin_faultless {limit : Nat} {reader : Reader} (awaits : reader.AwaitsError) :
    ofReaderWithin limit reader.faultless = (ofReaderWithin limit reader).map faultless := by
  induction limit generalizing reader with
  | zero => rfl
  | succ limit ih =>
    have later := ih ((Reader.passes_fetch awaits).awaitsError awaits)
    simp only [ofReaderWithin, Reader.fetch_faultless awaits, later]
    by_cases last : reader.fetch.1.token.category = .endOfFile
    · simp [last, Fetch.faultless, faultless]
    · simp only [Fetch.faultless, last, if_false, Option.map_map]
      rfl

/-- Up to the end of the feed, the read error is noted once. -/
theorem readErrors_ofReaderWithin {limit : Nat} {reader : Reader} {feed : Feed}
    (found : ofReaderWithin limit reader = some feed) (awaits : reader.AwaitsError) :
    feed.readErrors = reader.fault?.toList := by
  induction limit generalizing reader feed with
  | zero => contradiction
  | succ limit ih =>
    have passes := Reader.passes_fetch awaits
    rw [← passes]
    simp only [ofReaderWithin] at found
    split at found
    · rename_i last
      obtain rfl := Option.some.inj found
      rw [Reader.fault?_fetch_of_endOfFile last]
      simp [readErrors]
    · obtain ⟨rest, restFound, rfl⟩ := Option.map_eq_some_iff.mp found
      rw [readErrors_cons, ih restFound (passes.awaitsError awaits)]

end Feed

end CListing
