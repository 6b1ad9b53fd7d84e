import CListing.Proofs.Reader.FeedCommands

/-!
# Notes that come with a feed

Reading makes three kinds of notes: about the fault of the source, about literals and about comments
that lack their closing marks. So a condition that holds of those holds of all notes that the feed
of a reader brings along.
-/

namespace CListing

open Scan

/-- The condition holds of the notes that reading makes. -/
structure HoldsOfReading (p : Note → Prop) : Prop where
  literal (line : Nat) : p (.unterminatedLiteral line)
  comment (line : Nat) : p (.unterminatedComment line)

theorem HoldsOfReading.noteOf {p : Note → Prop} (holds : HoldsOfReading p) (line : Nat)
    (scan : Scan) :
    ∀ note ∈ Reader.noteOf line scan, p note := by
  intro note member
  unfold Reader.noteOf at member
  split at member
  · contradiction
  · split at member
    · obtain rfl := List.mem_singleton.mp member
      exact holds.comment line
    · obtain rfl := List.mem_singleton.mp member
      exact holds.literal line

namespace Reader

variable {p : Note → Prop} {reader : Reader}

/-- The condition holds of the notes and of the one that the reader is still to make. -/
structure Tells (p : Note → Prop) (notes : List Note) (reader : Reader) : Prop where
  notes : ∀ note ∈ notes, p note
  fault : ∀ note ∈ reader.fault?, p note

theorem Tells.append {notes more : List Note} (tells : Tells p notes reader) {next : Reader}
    (later : Tells p more next) : Tells p (notes ++ more) next := by
  refine ⟨fun note member => ?_, later.fault⟩
  rcases List.mem_append.mp member with early | late
  · exact tells.notes note early
  · exact later.notes note late

theorem tells_notice (fault : ∀ note ∈ reader.fault?, p note) :
    Tells p reader.notice.2 reader.notice.1 := by
  unfold notice
  split
  · exact ⟨by simp, fault⟩
  · exact ⟨fun note member => fault note (Option.mem_toList.mp member), by simp⟩

theorem tells_take (fault : ∀ note ∈ reader.fault?, p note) (cut : Cut) :
    Tells p (reader.take cut).2 (reader.take cut).1 :=
  @tells_notice p
    { reader with chars := cut.rest, line := reader.line + cut.extent.count '\n' } fault

theorem tells_scan (holds : HoldsOfReading p) (fault : ∀ note ∈ reader.fault?, p note) :
    Tells p reader.scan.1.notes reader.scan.2 := by
  have blanks : Tells p reader.skipBlanks.2 reader.skipBlanks.1 := tells_take fault _
  have piece := tells_take blanks.fault
    { extent := (ofText reader.skipBlanks.1.chars).extent,
      rest := (ofText reader.skipBlanks.1.chars).rest }
  exact (blanks.append piece).append ⟨holds.noteOf _ _, piece.fault⟩

theorem tells_fetchWithin (holds : HoldsOfReading p) (fault : ∀ note ∈ reader.fault?, p note)
    (credit : List Char) :
    Tells p (fetchWithin credit reader).1.notes (fetchWithin credit reader).2 := by
  induction credit generalizing reader with
  | nil => exact tells_scan holds fault
  | cons _ credit ih =>
    have first := tells_scan holds fault
    rw [fetchWithin]
    dsimp only
    split
    · exact first.append (ih first.fault)
    · exact first

end Reader

namespace Feed

/-- All notes that the feed brings along satisfy the condition. -/
def AllNotes (p : Note → Prop) (feed : Feed) : Prop :=
  (∀ fetch ∈ feed.ahead, ∀ note ∈ fetch.notes, p note) ∧ ∀ note ∈ feed.closingNotes, p note

variable {p : Note → Prop} {feed : Feed}

theorem AllNotes.fetch (all : feed.AllNotes p) :
    (∀ note ∈ feed.fetch.1.notes, p note) ∧ feed.fetch.2.AllNotes p := by
  rcases feed.cases_ahead with ⟨empty, _⟩ | ⟨first, rest, rfl⟩
  · rw [fetch_of_ahead_eq_nil empty]
    exact ⟨all.2, all.1, by simp [fetchEnd]⟩
  · rw [fetch_cons]
    exact ⟨all.1 first List.mem_cons_self,
      fun fetch member => all.1 fetch (List.mem_cons_of_mem _ member), all.2⟩

theorem allNotes_ofReaderWithin (holds : HoldsOfReading p) {limit : Nat} {reader : Reader}
    (fault : ∀ note ∈ reader.fault?, p note) (found : ofReaderWithin limit reader = some feed) :
    feed.AllNotes p := by
  induction limit generalizing reader feed with
  | zero => contradiction
  | succ limit ih =>
    have first := Reader.tells_fetchWithin holds fault reader.chars
    simp only [ofReaderWithin] at found
    split at found
    · obtain rfl := Option.some.inj found
      exact ⟨by simp, first.notes⟩
    · obtain ⟨rest, later, rfl⟩ := Option.map_eq_some_iff.mp found
      obtain ⟨inside, last⟩ := ih first.fault later
      refine ⟨fun fetch member => ?_, last⟩
      rcases List.mem_cons.mp member with rfl | others
      · exact first.notes
      · exact inside fetch others

/-- Places and notes do not matter to the commands that a feed brings along. -/
theorem allCommands_bare {p : Command → Bool} : feed.bare.AllCommands p ↔ feed.AllCommands p := by
  simp [AllCommands, bare, Fetch.bare]

/-- The feed of a reader brings along the lines of directives only. -/
theorem allCommands_ofReader {p : Command → Bool} (ends : p (.endLine false) = true)
    (directive : ∀ text, p (.directive text) = true) {reader : Reader}
    (found : ofReader? reader = some feed) : feed.AllCommands p := by
  obtain ⟨items, _, _, bare, _⟩ := exists_items found
  rw [← allCommands_bare, bare]
  exact allCommands_ofItems ends directive items

end Feed

end CListing
