import CListing.Proofs.Formatter.ReadErrors
import CListing.Proofs.Reformat.Determinacy

/-!
# Sources that cannot be read to their end

The lines before a fault are listed as they are listed without the lines after them. The log differs
by one message.
-/

namespace CListing

/-! ## Lines before a fault -/

namespace Source

/-- Reading comes to an end after the given lines: the next one is not UTF-8, or it cannot be
read. -/
inductive StopsAfter (valid : List (List UInt8)) :
    ReadFault → List (List UInt8) → Option ReadFault → Prop
  | undecodable {bytes : List UInt8} {rest : List (List UInt8)} {failure? : Option ReadFault}
      {fault : Utf8.Fault} (bad : Utf8.decode bytes = .error fault) :
      StopsAfter valid (.undecodable fault) (valid ++ bytes :: rest) failure?
  | failure {fault : ReadFault} : StopsAfter valid fault valid (some fault)

/-- Lines that are UTF-8 are read, whatever follows. -/
theorem exists_ofByteLines_append {valid : List (List UInt8)}
    (readable : ∀ bytes ∈ valid, ∃ line, Utf8.decode bytes = .ok line) :
    ∃ lines, lines.length = valid.length ∧
      ∀ (failure? : Option ReadFault) (rest : List (List UInt8)),
        ofByteLines failure? (valid ++ rest) =
          { ofByteLines failure? rest with
            lines := lines ++ (ofByteLines failure? rest).lines } := by
  induction valid with
  | nil => exact ⟨[], rfl, fun _ _ => rfl⟩
  | cons bytes valid ih =>
    obtain ⟨line, decoded⟩ := readable bytes List.mem_cons_self
    obtain ⟨lines, length, read⟩ := ih fun bytes member =>
      readable bytes (List.mem_cons_of_mem _ member)
    refine ⟨line :: lines, congrArg (· + 1) length, fun failure? rest => ?_⟩
    simp only [List.cons_append, ofByteLines, decoded, read]

/-- The lines before the fault are read, and the fault is kept beside them. -/
theorem exists_ofByteLines_of_stopsAfter {valid chunks : List (List UInt8)} {fault : ReadFault}
    {failure? : Option ReadFault}
    (readable : ∀ bytes ∈ valid, ∃ line, Utf8.decode bytes = .ok line)
    (stops : StopsAfter valid fault chunks failure?) :
    ∃ lines, lines.length = valid.length ∧ ofByteLines none valid = { lines := lines } ∧
      ofByteLines failure? chunks = { lines := lines, fault? := some fault } := by
  obtain ⟨lines, length, read⟩ := exists_ofByteLines_append readable
  have whole (failure? : Option ReadFault) :
      ofByteLines failure? valid = { lines := lines, fault? := failure? } := by
    simpa [ofByteLines] using read failure? []
  refine ⟨lines, length, whole none, ?_⟩
  cases stops with
  | undecodable bad => simp [read, ofByteLines, bad]
  | failure => exact whole (some fault)

end Source

/-! ## The wording of read errors -/

/-- Texts after numbers and colons are the same if the whole texts are. -/
theorem eq_of_toDigits_append {first second : Nat} {text other : List Char}
    (same : Nat.toDigits 10 first ++ ':' :: text = Nat.toDigits 10 second ++ ':' :: other) :
    text = other := by
  have behind (number : Nat) (text : List Char) :
      (Nat.toDigits 10 number ++ ':' :: text).dropWhile (· != ':') = ':' :: text := by
    rw [List.dropWhile_append_of_pos]
    · rfl
    · intro c member
      have digit : c.isDigit = true :=
        Nat.isDigit_of_mem_toDigits (by decide) (Nat.le_refl 10) member
      rw [bne_iff_ne]
      rintro rfl
      contradiction
  have tails := congrArg (List.dropWhile (· != ':')) same
  rw [behind, behind] at tails
  exact (List.cons.inj tails).2

/-- No other note has the wording of a read error. -/
theorem Note.isReadError_of_message_eq {note : Note} {line : Nat} {fault : ReadFault}
    (same : note.message = (Note.readError line fault).message) : note.isReadError = true := by
  have letters : note.message.toList = (Note.readError line fault).message.toList := by rw [same]
  unfold Note.message at letters
  cases note with
  | readError => rfl
  | token | unbalanced =>
    have heads := congrArg List.head? letters
    simp at heads
  | _ =>
    -- what follows the number of the line tells these notes from read errors
    simp only [String.toList_append, List.append_assoc] at letters
    have texts := eq_of_toDigits_append (by simpa using letters)
    simp at texts

/-! ## Listings -/

namespace Formatted

/-- The second run does what the first one does, and makes one note more. No other note has its
wording. -/
structure AddsNote (note : Note) (plain noted : Formatted) : Prop where
  listing : noted.listing = plain.listing
  functions : noted.functions = plain.functions
  missing : noted.missing = plain.missing
  notes : ∃ before after, plain.notes = before ++ after ∧ noted.notes = before ++ note :: after
  once : ∀ other ∈ plain.notes, other.message ≠ note.message

theorem readErrors_balanceNote (listing : Listing) :
    Note.readErrors (balanceNote listing) = [] := by
  unfold balanceNote
  split <;> rfl

theorem others_balanceNote (listing : Listing) :
    Note.others (balanceNote listing) = balanceNote listing := by
  unfold balanceNote
  split <;> rfl

/-- A read error that comes with a feed is all that its listing adds to the one without it. -/
theorem addsNote_ofFeed {feed : Feed} (endsLast : feed.EndsLast) {start : List Note} {line : Nat}
    {fault : ReadFault} (only : Note.readErrors start ++ feed.readErrors = [.readError line fault])
    (settings : Settings) (name : List Char) :
    AddsNote (.readError line fault)
      (ofFeed settings name feed.faultless (Note.others start))
      (ofFeed settings name feed start) := by
  have same := Formatter.file_faultless feed settings.traced start
  have errors := Formatter.readErrors_file endsLast settings.traced start
  have script := congrArg Formatter.script same
  have functions := congrArg Formatter.functions same
  have missing := congrArg Formatter.missing same
  have notes := congrArg (fun f : Formatter Feed => f.notes.toList) same
  simp only [Formatter.faultless] at script functions missing notes
  have listing : (ofFeed settings name feed start).listing =
      (ofFeed settings name feed.faultless (Note.others start)).listing := by
    simp only [ofFeed, script]
  have others : Note.others (ofFeed settings name feed start).notes =
      (ofFeed settings name feed.faultless (Note.others start)).notes := by
    simp only [ofFeed, Note.others_append, others_balanceNote, notes, script]
  have once : Note.readErrors (ofFeed settings name feed start).notes =
      [.readError line fault] := by
    simp only [ofFeed, Note.readErrors_append, readErrors_balanceNote, errors, only,
      List.append_nil]
  obtain ⟨before, after, noted, plain⟩ := Note.exists_of_readErrors_eq once
  refine ⟨listing, functions, missing, ⟨before, after, others.symm.trans plain, noted⟩, ?_⟩
  intro other member wording
  rw [← others] at member
  simpa [Note.isReadError_of_message_eq wording] using (List.mem_filter.mp member).2

/-- A fault adds its note to the listing of the lines before it, if there is one. -/
theorem addsNote_ofSource? (settings : Settings) (name : List Char) (lines : List (List Char))
    (fault : ReadFault) :
    Option.Rel (AddsNote (.readError (lines.length + 1) fault))
      (ofSource? settings name { lines := lines })
      (ofSource? settings name { lines := lines, fault? := some fault }) := by
  let source : Source := { lines := lines, fault? := some fault }
  have awaits := Reader.awaitsError_ofSource source
  have noted := Reader.passes_ofSource source
  have plain : Reader.ofSource { lines := lines } = _ := Reader.ofSource_faultless source
  have feeds : Feed.ofReader? (Reader.ofSource source).1.faultless =
      (Feed.ofReader? (Reader.ofSource source).1).map Feed.faultless :=
    Feed.ofReaderWithin_faultless awaits
  rw [ofSource?_eq, ofSource?_eq, plain, feeds, Option.map_map]
  cases found : Feed.ofReader? (Reader.ofSource source).1 with
  | none => exact Option.Rel.none
  | some feed =>
    have errors := Feed.readErrors_ofReaderWithin found awaits
    have endsLast := Feed.endsLast_ofReaderWithin found
    rw [← errors] at noted
    exact Option.Rel.some (addsNote_ofFeed endsLast noted settings name)

end Formatted

/-- Whatever the layout and the name are: if reading stops after some lines, then they are listed as
they are without what follows, and the log has one message more, which names the next line. -/
theorem reformat_read_error {valid chunks : List (List UInt8)} {fault : ReadFault}
    {failure? : Option ReadFault}
    (readable : ∀ bytes ∈ valid, ∃ line, Utf8.decode bytes = .ok line)
    (stops : Source.StopsAfter valid fault chunks failure?) (settings : Settings)
    (name : List Char) :
    (∀ refusal, reformat settings name (.ofByteLines failure? chunks) = .error refusal ↔
        reformat settings name (.ofByteLines none valid) = .error refusal) ∧
      Option.Rel (Formatted.AddsNote (.readError (valid.length + 1) fault))
        (Formatted.ofSource? settings name (.ofByteLines none valid))
        (Formatted.ofSource? settings name (.ofByteLines failure? chunks)) := by
  obtain ⟨lines, length, whole, stopped⟩ :=
    Source.exists_ofByteLines_of_stopsAfter readable stops
  rw [whole, stopped, ← length]
  have adds := Formatted.addsNote_ofSource? settings name lines fault
  refine ⟨fun refusal => ?_, adds⟩
  unfold reformat
  cases settings.layout.fault? with
  | some fault => exact Iff.rfl
  | none =>
    generalize Formatted.ofSource? settings name { lines := lines } = plain at adds ⊢
    generalize Formatted.ofSource? settings name { lines := lines, fault? := some fault } = noted
      at adds ⊢
    cases adds with
    | none => exact Iff.rfl
    | some => simp

/-- The fault is noticed within a literal that has no closing quote. -/
theorem reformat_read_error_literal :
    let valid := ["int x;\n".toList, "y = \"a\n".toList].map Utf8.encode
    let fault : Utf8.Fault :=
      { position := 0, lead := 0xFF, continuations := 0, reason := .badStart }
    (Formatted.ofSource? {} [] (.ofByteLines none valid)).map (·.notes) =
        some [.unterminatedLiteral 2,
          .missing .semicolon { category := .endOfFile, lexeme := [], line := 3 }] ∧
      Option.Rel (Formatted.AddsNote (.readError 3 (.undecodable fault)))
        (Formatted.ofSource? {} [] (.ofByteLines none valid))
        (Formatted.ofSource? {} [] (.ofByteLines none (valid ++ [[0xFF]]))) := by
  intro valid fault
  have readable : ∀ bytes ∈ valid, ∃ line, Utf8.decode bytes = .ok line := by
    intro bytes member
    obtain ⟨text, _, rfl⟩ := List.mem_map.mp member
    exact ⟨text, Utf8.decode_encode text⟩
  have bad : Utf8.decode [0xFF] = .error fault := by decide
  exact ⟨by decide +kernel, (reformat_read_error readable (.undecodable bad) {} []).2⟩

end CListing
