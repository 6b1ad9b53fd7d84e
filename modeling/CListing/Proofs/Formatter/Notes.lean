import CListing.Proofs.Formatter.Bare
import CListing.Proofs.Formatter.Invariant
import CListing.Proofs.Formatter.Progress
import CListing.Proofs.Reader.FeedCommands

/-!
# Walks with nothing to note

A walk notes what its feed brings along, every token that is missing, and every token fetched if
tokens are to be noted. So it notes nothing exactly if there is none of that. The listing then holds
no report, because it holds as many as tokens are missing.
-/

namespace CListing

namespace Feed

/-- A feed is quiet if its next fetch brings no note along and what follows is quiet. -/
theorem quiet_fetch (feed : Feed) :
    feed.Quiet ↔ feed.fetch.1.notes = [] ∧ feed.fetch.2.Quiet := by
  rcases feed.cases_ahead with ⟨empty, _⟩ | ⟨first, rest, rfl⟩
  · rw [fetch_of_ahead_eq_nil empty]
    simp [Quiet, fetchEnd, empty]
  · exact quiet_cons

/-- No fetch of the feed but the last is the end. -/
def EndsLast (feed : Feed) : Prop :=
  ∀ fetch ∈ feed.ahead, fetch.token.category ≠ .endOfFile

/-- What follows the end is quiet. -/
theorem endsLast_fetch {feed : Feed} (endsLast : feed.EndsLast) :
    feed.fetch.2.EndsLast ∧
      (feed.fetch.1.token.category = .endOfFile → feed.fetch.2.Quiet) := by
  rcases feed.cases_ahead with ⟨empty, _⟩ | ⟨first, rest, rfl⟩
  · rw [fetch_of_ahead_eq_nil empty]
    exact ⟨endsLast, fun _ => ⟨by simp [fetchEnd, empty], rfl⟩⟩
  · constructor
    · intro fetch member
      exact endsLast fetch (List.mem_cons_of_mem _ member)
    · intro last
      exact absurd last (endsLast first List.mem_cons_self)

/-- The feed of a reader ends with its last fetch. -/
theorem endsLast_ofReaderWithin {limit : Nat} {reader : Reader} {feed : Feed}
    (found : ofReaderWithin limit reader = some feed) : feed.EndsLast := by
  induction limit generalizing reader feed with
  | zero => contradiction
  | succ limit ih =>
    simp only [ofReaderWithin] at found
    split at found
    · obtain rfl := Option.some.inj found
      intro fetch member
      contradiction
    · rename_i before
      obtain ⟨rest, restFound, rfl⟩ := Option.map_eq_some_iff.mp found
      intro fetch member
      rcases List.mem_cons.mp member with rfl | later
      · exact before
      · exact ih restFound fetch later

end Feed

namespace Formatter

/-- How the notes of a walk along the feed, made after the given notes, come about. -/
structure Notes (feed : Feed) (traced : Bool) (start : List Note) (formatter : Formatter Feed) :
    Prop where
  focus : formatter.Focused
  endsLast : formatter.cursor.source.EndsLast
  traced_eq : formatter.cursor.traced = traced
  /-- Nothing is ahead at the end, which was noted if tokens are. -/
  ends : formatter.cursor.current.category = .endOfFile →
    formatter.cursor.source.Quiet ∧ (traced = true → formatter.notes.toList ≠ [])
  silent : formatter.notes.toList = [] →
    start = [] ∧ formatter.missing = 0 ∧ (formatter.cursor.source.Quiet → feed.Quiet)
  heard : start = [] → feed.Quiet → traced = false →
    formatter.cursor.source.Quiet ∧ formatter.notes.size = formatter.missing

namespace Notes

variable {feed : Feed} {traced : Bool} {start : List Note} {f : Formatter Feed}

theorem ofTokens (endsLast : feed.EndsLast) :
    Notes feed traced start (.ofTokens feed traced start) where
  focus := Or.inl ⟨rfl, rfl⟩
  endsLast := endsLast
  traced_eq := rfl
  ends last := Category.noConfusion last
  silent empty := ⟨by simpa [Formatter.ofTokens] using empty, rfl, id⟩
  heard empty quiet _ := ⟨quiet, by simp [Formatter.ofTokens, empty]⟩

theorem advance (notes : Notes feed traced start f) : Notes feed traced start f.advance := by
  rcases notes.focus with ⟨free, _⟩ | ⟨put, _⟩
  · obtain ⟨endsLast, atEnd⟩ := Feed.endsLast_fetch notes.endsLast
    have quiet := f.cursor.source.quiet_fetch
    have focus := focused_advance f
    rw [advance_of_free free] at focus ⊢
    refine ⟨focus, endsLast, notes.traced_eq, ?_, ?_, ?_⟩
    · intro last
      refine ⟨atEnd last, ?_⟩
      rintro rfl
      simp [Cursor.traceOf, notes.traced_eq]
    · intro empty
      simp only [Array.toList_appendList, List.append_eq_nil_iff] at empty
      obtain ⟨start_nil, missing, before⟩ := notes.silent empty.1
      exact ⟨start_nil, missing, fun later => before (quiet.mpr ⟨empty.2.1, later⟩)⟩
    · intro empty quietFeed untraced
      obtain ⟨before, size⟩ := notes.heard empty quietFeed untraced
      obtain ⟨none_fetched, later⟩ := quiet.mp before
      refine ⟨later, ?_⟩
      simpa [none_fetched, Cursor.traceOf, notes.traced_eq, untraced] using size
  · have focus := focused_advance f
    rw [advance_of_put put] at focus ⊢
    exact ⟨focus, notes.endsLast, notes.traced_eq, notes.ends, notes.silent, notes.heard⟩

theorem reportMissing (required : Category) (notes : Notes feed traced start f) :
    Notes feed traced start (f.reportMissing required) where
  focus := notes.focus
  endsLast := notes.endsLast
  traced_eq := notes.traced_eq
  ends last := ⟨(notes.ends last).1, fun _ => by simp [Formatter.reportMissing]⟩
  silent empty := by simp [Formatter.reportMissing] at empty
  heard empty quiet untraced := by
    obtain ⟨before, size⟩ := notes.heard empty quiet untraced
    exact ⟨before, by simp [Formatter.reportMissing, size]⟩

theorem lookAgain (notes : Notes feed traced start f) (name : f.kind.isName = true) :
    Notes feed traced start (f.advance.putBack.lookAt f.token) := by
  have next := notes.advance
  have focus := focused_lookAgain name
  rw [putBack_advance] at focus ⊢
  exact ⟨focus, next.endsLast, next.traced_eq, next.ends, next.silent, next.heard⟩

/-- Steps that note nothing change nothing here. -/
theorem congr (notes : Notes feed traced start f) {g : Formatter Feed} (focus : g.Focused)
    (source : g.cursor.source = f.cursor.source) (traced_eq : g.cursor.traced = f.cursor.traced)
    (current : g.cursor.current = f.cursor.current) (same : g.notes = f.notes)
    (missing : g.missing = f.missing) : Notes feed traced start g := by
  refine ⟨focus, ?_, ?_, ?_, ?_, ?_⟩
  · rw [source]
    exact notes.endsLast
  · rw [traced_eq]
    exact notes.traced_eq
  · rw [current, source, same]
    exact notes.ends
  · rw [same, missing, source]
    exact notes.silent
  · rw [same, missing, source]
    exact notes.heard

end Notes

theorem invariant_notes (feed : Feed) (traced : Bool) (start : List Note) :
    Invariant (Notes feed traced start) where
  perform notes _ := notes.congr notes.focus rfl rfl rfl rfl rfl
  reportMissing required notes := notes.reportMissing required
  markDeclaration notes := notes.congr notes.focus rfl rfl rfl rfl rfl
  markExpression _ notes := notes.congr notes.focus rfl rfl rfl rfl rfl
  joinLeft notes _ := notes.congr notes.focus rfl rfl rfl rfl rfl
  advance notes := notes.advance
  lookAgain notes name := notes.lookAgain name
  countFunction notes := notes.congr notes.focus rfl rfl rfl rfl rfl
  countOpened notes := notes.congr notes.focus rfl rfl rfl rfl rfl
  countClosed notes := notes.congr notes.focus rfl rfl rfl rfl rfl

/-- A walk makes no note exactly if none was made before, the feed brings none along, tokens are
not noted, and none is missing. -/
theorem notes_file_eq_nil_iff {feed : Feed} (endsLast : feed.EndsLast) (traced : Bool)
    (start : List Note) :
    (ofTokens feed traced start).file.notes.toList = [] ↔
      start = [] ∧ feed.Quiet ∧ traced = false ∧
        (ofTokens feed traced start).file.missing = 0 := by
  have notes := (invariant_notes feed traced start).file (Notes.ofTokens endsLast)
  have last := notes.focus.category_current (kind_file _)
  obtain ⟨quiet, noted⟩ := notes.ends last
  constructor
  · intro empty
    obtain ⟨start_nil, missing, before⟩ := notes.silent empty
    refine ⟨start_nil, before quiet, ?_, missing⟩
    cases traced with
    | false => rfl
    | true => exact absurd empty (noted rfl)
  · rintro ⟨start_nil, quietFeed, untraced, missing⟩
    obtain ⟨_, size⟩ := notes.heard start_nil quietFeed untraced
    rw [missing] at size
    simpa using size

end Formatter

/-! ## Reports -/

/-- The command writes a report. -/
def Command.isReport : Command → Bool
  | .report _ => true
  | _ => false

namespace Feed

/-- No fetch of the feed brings a report along. -/
def Reportless (feed : Feed) : Prop :=
  (∀ fetch ∈ feed.ahead, fetch.script.countP Command.isReport = 0) ∧
    feed.closing.countP Command.isReport = 0

theorem reportless_iff {feed : Feed} :
    feed.Reportless ↔ feed.AllCommands (!·.isReport) := by
  simp [Reportless, AllCommands, List.countP_eq_zero]

theorem reportless_fetch {feed : Feed} (reportless : feed.Reportless) :
    feed.fetch.1.commands.countP Command.isReport = 0 ∧ feed.fetch.2.Reportless := by
  obtain ⟨commands, later⟩ := (reportless_iff.mp reportless).fetch rfl
  exact ⟨by simpa [List.countP_eq_zero] using commands, reportless_iff.mpr later⟩

/-- The items of a source hold no reports. -/
theorem reportless_ofItems (items : List Item) : (ofItems items).Reportless :=
  reportless_iff.mpr (allCommands_ofItems rfl (fun _ => rfl) items)

end Feed

namespace Formatter

/-- There are as many reports in the script as tokens are missing. -/
structure Reports (formatter : Formatter Feed) : Prop where
  count : formatter.script.toList.countP Command.isReport = formatter.missing
  ahead : formatter.cursor.source.Reportless

theorem Reports.advance {f : Formatter Feed} (reports : Reports f) : Reports f.advance := by
  cases slot : f.cursor.lookahead? with
  | none =>
    obtain ⟨fetched, later⟩ := Feed.reportless_fetch reports.ahead
    have released : f.cursor.release.countP Command.isReport = 0 := by
      unfold Cursor.release
      split <;> rfl
    rw [advance_of_free slot]
    refine ⟨?_, later⟩
    simpa [released, fetched] using reports.count
  | some token =>
    rw [advance_of_put slot]
    exact ⟨reports.count, reports.ahead⟩

theorem invariant_reports : Invariant Reports where
  perform {f command} reports silent := by
    have noReport : command.isReport = false := by
      cases command <;> first | rfl | contradiction
    exact ⟨by simpa [perform, noReport] using reports.count, reports.ahead⟩
  reportMissing required reports :=
    ⟨by simpa [reportMissing, Command.isReport] using reports.count, reports.ahead⟩
  markDeclaration reports := ⟨reports.count, reports.ahead⟩
  markExpression _ reports := ⟨reports.count, reports.ahead⟩
  joinLeft reports _ := ⟨reports.count, reports.ahead⟩
  advance reports := reports.advance
  lookAgain reports _ := by
    have next := reports.advance
    rw [putBack_advance]
    exact ⟨next.count, next.ahead⟩
  countFunction reports := ⟨reports.count, reports.ahead⟩
  countOpened reports := ⟨reports.count, reports.ahead⟩
  countClosed reports := ⟨reports.count, reports.ahead⟩

/-- The walk along items reports every missing token once. -/
theorem countP_isReport_ofItems (items : List Item) :
    (ofItems items).script.toList.countP Command.isReport = (ofItems items).missing :=
  (invariant_reports.file ⟨rfl, Feed.reportless_ofItems items⟩).count

end Formatter

end CListing
