import CListing.Proofs.Formatter.Notes
import CListing.Proofs.Reader.Faultless

/-!
# Walks along sources with a fault

Read errors have no influence on a walk. It does what the walk along the same feed without them
does, and makes the same notes apart from them. Each read error that the feed brings along is noted,
in order.
-/

namespace CListing

/-- Tokens that are noted are no read errors. -/
theorem Cursor.others_traceOf {σ : Type} (cursor : Cursor σ) (token : Token) :
    Note.others (cursor.traceOf token) = cursor.traceOf token := by
  unfold traceOf
  split <;> rfl

theorem Cursor.readErrors_traceOf {σ : Type} (cursor : Cursor σ) (token : Token) :
    Note.readErrors (cursor.traceOf token) = [] := by
  unfold traceOf
  split <;> rfl

namespace Formatter

/-- The formatter without read errors. -/
def faultless (formatter : Formatter Feed) : Formatter Feed :=
  { formatter with
    cursor := { formatter.cursor with source := formatter.cursor.source.faultless }
    notes := (Note.others formatter.notes.toList).toArray }

theorem reportMissing_faultless (formatter : Formatter Feed) (required : Category) :
    formatter.faultless.reportMissing required = (formatter.reportMissing required).faultless := by
  simp [reportMissing, faultless, Note.others, Note.isReadError]

theorem advance_faultless (formatter : Formatter Feed) :
    formatter.faultless.advance = formatter.advance.faultless := by
  cases slot : formatter.cursor.lookahead? with
  | some token =>
    have alsoPut : formatter.faultless.cursor.lookahead? = some token := slot
    rw [advance_of_put slot, advance_of_put alsoPut]
    rfl
  | none =>
    have alsoFree : formatter.faultless.cursor.lookahead? = none := slot
    have fetched := formatter.cursor.source.fetch_faultless
    have traced (token : Token) :
        formatter.faultless.cursor.traceOf token = formatter.cursor.traceOf token := rfl
    have released : formatter.faultless.cursor.release = formatter.cursor.release := rfl
    rw [advance_of_free slot, advance_of_free alsoFree, traced, released]
    simp only [faultless, fetched, Fetch.faultless, Array.toList_appendList, Note.others_append,
      Cursor.others_traceOf]
    simp
    rfl

theorem lookAgain_faultless (formatter : Formatter Feed) :
    formatter.faultless.advance.putBack.lookAt formatter.faultless.token =
      (formatter.advance.putBack.lookAt formatter.token).faultless := by
  rw [putBack_advance, putBack_advance, advance_faultless]
  rfl

/-- Without read errors a walk takes the same course. -/
theorem simulation_faultless : Simulation fun f g : Formatter Feed => f.faultless = g where
  kind := by
    rintro f _ rfl
    rfl
  remaining := by
    rintro f _ rfl
    rfl
  perform := by
    rintro f _ command rfl _
    rfl
  reportMissing := by
    rintro f _ required rfl
    exact (reportMissing_faultless f required).symm
  markDeclaration := by
    rintro f _ rfl
    rfl
  markExpression := by
    rintro f _ previous rfl
    rfl
  joinLeft := by
    rintro f _ rfl _
    rfl
  advance := by
    rintro f _ rfl
    exact (advance_faultless f).symm
  lookAgain := by
    rintro f _ rfl _
    exact (lookAgain_faultless f).symm
  countFunction := by
    rintro f _ rfl
    rfl
  countOpened := by
    rintro f _ rfl
    rfl
  countClosed := by
    rintro f _ rfl
    rfl

theorem file_faultless (feed : Feed) (traced : Bool) (start : List Note) :
    (ofTokens feed traced start).file.faultless =
      (ofTokens feed.faultless traced (Note.others start)).file := by
  apply simulation_faultless.file
  simp [ofTokens, faultless]

/-- The read errors noted, and those that the feed still brings along. -/
def ReadErrors (errors : List Note) (formatter : Formatter Feed) : Prop :=
  Note.readErrors formatter.notes.toList ++ formatter.cursor.source.readErrors = errors

theorem ReadErrors.advance {errors : List Note} {f : Formatter Feed} (holds : ReadErrors errors f) :
    ReadErrors errors f.advance := by
  cases slot : f.cursor.lookahead? with
  | some token =>
    rw [advance_of_put slot]
    exact holds
  | none =>
    have fetched := f.cursor.source.readErrors_fetch
    rw [advance_of_free slot]
    rw [ReadErrors, fetched, ← List.append_assoc] at holds
    simpa [ReadErrors, Cursor.readErrors_traceOf] using holds

theorem invariant_readErrors (errors : List Note) : Invariant (ReadErrors errors) where
  perform holds _ := holds
  reportMissing required holds := by
    simpa [ReadErrors, reportMissing, Note.readErrors, Note.isReadError] using holds
  markDeclaration holds := holds
  markExpression _ holds := holds
  joinLeft holds _ := holds
  advance holds := holds.advance
  lookAgain holds _ := by
    have next := holds.advance
    rw [putBack_advance]
    exact next
  countFunction holds := holds
  countOpened holds := holds
  countClosed holds := holds

/-- At the end of a walk each read error is noted. -/
theorem readErrors_file {feed : Feed} (endsLast : feed.EndsLast) (traced : Bool)
    (start : List Note) :
    Note.readErrors (ofTokens feed traced start).file.notes.toList =
      Note.readErrors start ++ feed.readErrors := by
  have notes := (invariant_notes feed traced start).file (Notes.ofTokens endsLast)
  have last := notes.focus.category_current (kind_file _)
  have holds : ReadErrors (Note.readErrors start ++ feed.readErrors)
      (ofTokens feed traced start).file :=
    (invariant_readErrors _).file (by simp [ReadErrors, ofTokens])
  rwa [ReadErrors, Feed.readErrors_of_quiet (notes.ends last).1, List.append_nil] at holds

end Formatter

end CListing
