import CListing.Proofs.Formatter.FileBalance
import CListing.Proofs.Reader.FeedNotes
import CListing.Proofs.Reformat.Preservation
import Mathlib.Algebra.Order.Ring.Int

/-!
# Balance of the indentation

Statements and functions leave the indentation of a listing where it was, wherever the source ends
and whatever is wrong with it. Only a declaration that is cut off by the end of the source inside
its braces leaves it deeper, by one step for each of them. So the indentation at the end of a file
tells how many braces of declarations were opened and not closed, and the log complains exactly if
these are not as many.
-/

namespace CListing

open Round

namespace Formatter

theorem regular_ofTokens {reader : Reader} {feed : Feed} (found : Feed.ofReader? reader = some feed)
    (traced : Bool) (notes : List Note) : (ofTokens feed traced notes).Regular where
  source := Feed.allCommands_ofReader rfl (fun _ => rfl) found
  endsLast := Feed.endsLast_ofReaderWithin found
  ends last := Category.noConfusion last
  put := by simp [ofTokens]

/-! ## Coming back -/

/-- The second state has the indentation of the first one, but for one step for each body inside
which a declaration is cut off. -/
def ComesBack (f g : Formatter Feed) (cut : Nat → Prop) : Prop :=
  ∃ left : Nat, (∀ braces, 0 < braces → (cut braces ↔ braces = left)) ∧
    ∀ listing : Listing, (listing.run g.script.toList).indentation =
      (listing.run f.script.toList).indentation + left * listing.layout.indentSize

/-- From the first state to the second the indentation never falls below what it was at first. -/
def StaysInside (f g : Formatter Feed) : Prop :=
  ∀ (listing : Listing) (before : List Command), 0 ≤ listing.layout.indentSize →
    f.script.toList <+: before → before <+: g.script.toList →
      (listing.run f.script.toList).indentation ≤ (listing.run before).indentation

variable {f g : Formatter Feed} {cut : Nat → Prop}

theorem Rises.comesBack (rises : Rises f 0 g cut) : ComesBack f g cut := by
  obtain ⟨left, climbs, cuts⟩ := rises
  obtain ⟨more, split, found⟩ := climbs.script
  refine ⟨left, cuts, fun listing => ?_⟩
  have depth := shifts_of_depth? found
  rw [Nat.zero_add, Nat.cast_zero, Int.zero_add] at depth
  rw [split, Listing.run_append, Listing.indentation_run, Listing.layout_run, ← depth,
    Int.mul_comm]

theorem Rises.staysInside (rises : Rises f 0 g cut) : StaysInside f g := by
  obtain ⟨left, climbs, _⟩ := rises
  obtain ⟨more, split, found⟩ := climbs.script
  rintro listing _ wide ⟨early, rfl⟩ within
  rw [split, List.prefix_append_right_inj] at within
  have inside := Int.mul_nonneg wide (shifts_nonneg_of_start found within)
  rw [Listing.run_append, Listing.indentation_run _ early, Listing.layout_run]
  omega

theorem Level.comesBack (level : Level f g) : ComesBack f g fun _ => False :=
  (Rises.ofLevel level).comesBack

/-- A header leaves the indentation as it was. -/
theorem comesBack_header {read : Formatter Feed} (regular : f.Regular)
    (header : f.externalDeclaration = (.header, read)) : ComesBack f read fun _ => False := by
  obtain ⟨left, weighs, outside, _⟩ := weighs_externalDeclaration regular
  rw [header] at weighs outside
  obtain rfl := outside rfl
  obtain ⟨more, split, found⟩ := weighs.script
  refine ⟨0, fun braces inside => iff_of_false id (Nat.ne_of_gt inside), fun listing => ?_⟩
  rw [Int.zero_add] at found
  dsimp only at split
  rw [split, Listing.run_append, Listing.indentation_run, found]
  simp

/-! ## Notes -/

/-- The condition holds of the notes so far and of those that the feed brings along. -/
structure NotesHold (p : Note → Prop) (f : Formatter Feed) : Prop where
  notes : ∀ note ∈ f.notes.toList, p note
  source : f.cursor.source.AllNotes p

theorem NotesHold.advance {p : Note → Prop} (token : ∀ found, p (.token found))
    (hold : f.NotesHold p) : f.advance.NotesHold p := by
  cases slot : f.cursor.lookahead? with
  | some put =>
    rw [advance_of_put slot]
    exact ⟨hold.notes, hold.source⟩
  | none =>
    obtain ⟨fetched, later⟩ := hold.source.fetch
    rw [advance_of_free slot]
    refine ⟨fun note member => ?_, later⟩
    rw [Array.toList_appendList] at member
    rcases List.mem_append.mp member with before | own
    · exact hold.notes note before
    rcases List.mem_append.mp own with brought | traced
    · exact fetched note brought
    · unfold Cursor.traceOf at traced
      split at traced
      · obtain rfl := List.mem_singleton.mp traced
        exact token _
      · contradiction

/-- A walk notes nothing but what the feed brings along, tokens, and tokens that are missing. -/
theorem invariant_notesHold {p : Note → Prop} (token : ∀ found, p (.token found))
    (missing : ∀ required found, p (.missing required found)) : Invariant (NotesHold p) where
  perform hold _ := ⟨hold.notes, hold.source⟩
  reportMissing {f} required hold := by
    refine ⟨fun note member => ?_, hold.source⟩
    simp only [reportMissing, Array.toList_push, List.mem_append, List.mem_singleton] at member
    rcases member with before | rfl
    · exact hold.notes note before
    · exact missing required f.token
  markDeclaration hold := ⟨hold.notes, hold.source⟩
  markExpression _ hold := ⟨hold.notes, hold.source⟩
  joinLeft hold _ := ⟨hold.notes, hold.source⟩
  advance hold := hold.advance token
  lookAgain hold _ := by
    have next := hold.advance token
    rw [putBack_advance]
    exact ⟨next.notes, next.source⟩
  countFunction hold := ⟨hold.notes, hold.source⟩
  countOpened hold := ⟨hold.notes, hold.source⟩
  countClosed hold := ⟨hold.notes, hold.source⟩

end Formatter

open Formatter

/-- The note complains about the indentation. -/
def Note.isUnbalanced : Note → Bool
  | .unbalanced _ => true
  | _ => false

theorem Note.holdsOfReading : HoldsOfReading (·.isUnbalanced = false) :=
  ⟨fun _ => rfl, fun _ => rfl⟩

/-- No note of a walk complains about the indentation. -/
theorem Formatter.isUnbalanced_file {source : Source} {feed : Feed}
    (found : Feed.ofReader? (Reader.ofSource source).1 = some feed) (traced : Bool) :
    ∀ note ∈ (ofTokens feed traced (Reader.ofSource source).2).file.notes.toList,
      note.isUnbalanced = false := by
  have fault : ∀ note ∈ source.faultNote?, note.isUnbalanced = false := by
    intro note made
    obtain ⟨fault, _, rfl⟩ := Option.map_eq_some_iff.mp made
    rfl
  have start : Reader.Tells (·.isUnbalanced = false) (Reader.ofSource source).2
      (Reader.ofSource source).1 := Reader.tells_notice fault
  have first : NotesHold (·.isUnbalanced = false)
      (ofTokens feed traced (Reader.ofSource source).2) :=
    ⟨by simpa [ofTokens] using start.notes,
      Feed.allNotes_ofReaderWithin Note.holdsOfReading start.fault found⟩
  exact ((invariant_notesHold (fun _ => rfl) fun _ _ => rfl).file first).notes

namespace Formatted

/-- What a walk along a feed leaves of the indentation, and what is said about it. -/
structure Balanced (settings : Settings) (walk : Formatter Feed) (cut : Nat → Prop)
    (formatted : Formatted) : Prop where
  indentation : formatted.listing.indentation = settings.layout.indentSize * walk.bodies
  cutOff : 0 < formatted.listing.indentation → ∃ braces, 0 < braces ∧ cut braces
  noted : formatted.notes.any Note.isUnbalanced = true ↔ walk.bodiesOpened ≠ walk.bodiesClosed

theorem balanced_ofFeed {settings : Settings} (acceptable : settings.layout.Acceptable)
    {source : Source} {feed : Feed} (found : Feed.ofReader? (Reader.ofSource source).1 = some feed)
    (name : List Char) :
    let start := ofTokens feed settings.traced (Reader.ofSource source).2
    Balanced settings start.file start.advance.FileCut
      (ofFeed settings name feed (Reader.ofSource source).2) := by
  intro start
  have accounts := accounts_file (regular_ofTokens found settings.traced (Reader.ofSource source).2)
  obtain ⟨more, split, bodies⟩ := accounts.script
  have none_before : start.bodies = 0 := rfl
  have walked : start.file.script.toList = more := by
    rw [split]
    simp [ofTokens]
  have indentation : (ofFeed settings name feed (Reader.ofSource source).2).listing.indentation =
      settings.layout.indentSize * start.file.bodies := by
    have run := Listing.indentation_run (Listing.blank settings.layout name) more
    rw [← walked, Listing.blank, Int.zero_add] at run
    rw [bodies, none_before, Int.zero_add, ← walked]
    exact run
  have wide := acceptable.indentSize_pos
  have zero_iff : settings.layout.indentSize * start.file.bodies = 0 ↔
      start.file.bodiesOpened = start.file.bodiesClosed := by
    rw [Int.mul_eq_zero, Formatter.bodies]
    omega
  refine ⟨indentation, fun deeper => accounts.grows ?_, ?_⟩
  · rw [indentation] at deeper
    exact (mul_pos_iff_of_pos_left (Int.lt_of_lt_of_le Int.zero_lt_one wide)).mp deeper
  · have silent : start.file.notes.toList.any Note.isUnbalanced = false := by
      rw [List.any_eq_false]
      intro note member
      simp [isUnbalanced_file found settings.traced note member]
    change (start.file.notes.toList ++ balanceNote _).any Note.isUnbalanced = true ↔ _
    rw [List.any_append, silent, Bool.false_or, balanceNote]
    rw [← indentation] at zero_iff
    split
    · rename_i balanced
      simp [zero_iff.mp balanced]
    · rename_i unbalanced
      exact iff_of_true rfl fun same => unbalanced (zero_iff.mpr same)

end Formatted

/-- Every way of reading leaves the indentation where it was, but for a declaration that is cut off
by the end of the source inside its braces, which leaves it one step higher for each of them:
calls that read statements, parts of statements and declarations; statements that contain none;
bodies of functions, during which it never falls below what it was; and headers. This holds in
every state that a walk along a source comes to. At the end the indentation is as many steps as
braces of declarations were opened, less those that were closed; it is positive only if the source
ends inside such braces, and the log complains exactly if these are not as many. -/
theorem indentation_balanced :
    (∀ call : Call, call.formatter.Regular → ComesBack call.formatter call.result call.Cut) ∧
    (∀ f : Formatter Feed, f.Regular →
      ∀ g ∈ [f.expressionStatement, f.jumpStatement, f.returnStatement, f.gotoStatement],
        ComesBack f g fun _ => False) ∧
    (∀ f : Formatter Feed, f.Regular →
      ComesBack f f.functionBody f.BodyCut ∧ StaysInside f f.functionBody) ∧
    (∀ f read : Formatter Feed, f.Regular → f.externalDeclaration = (.header, read) →
      ComesBack f read fun _ => False) ∧
    (∀ (reader : Reader) (feed : Feed), Feed.ofReader? reader = some feed →
      ∀ (traced : Bool) (notes : List Note), (ofTokens feed traced notes).Regular) ∧
    Formatter.Invariant Regular ∧
    ∀ (settings : Settings) (name : List Char) (source : Source) (formatted : Formatted),
      reformat settings name source = .ok formatted →
        ∃ feed, Feed.ofReader? (Reader.ofSource source).1 = some feed ∧
          let start := ofTokens feed settings.traced (Reader.ofSource source).2
          formatted.Balanced settings start.file start.advance.FileCut := by
  refine ⟨fun call regular => (Call.rising call regular).comesBack, ?_, ?_, ?_, ?_,
    invariant_regular, ?_⟩
  · intro f regular g member
    have level := Level.refl regular
    simp only [List.mem_cons, List.not_mem_nil, or_false] at member
    rcases member with rfl | rfl | rfl | rfl
    · exact level.expressionStatement.comesBack
    · exact level.jumpStatement.comesBack
    · exact level.returnStatement.comesBack
    · exact level.gotoStatement.comesBack
  · intro f regular
    have rises := rises_functionBody regular
    exact ⟨rises.comesBack, rises.staysInside⟩
  · exact fun f read regular header => comesBack_header regular header
  · exact fun reader feed found traced notes => regular_ofTokens found traced notes
  · intro settings name source formatted ok
    obtain ⟨acceptable, feed, found, rfl⟩ := reformat_eq_ok_iff.mp ok
    exact ⟨feed, found, Formatted.balanced_ofFeed acceptable found name⟩

/-- In a function whose last declaration is cut off inside two structures, two steps are left. -/
theorem indentation_balanced_cutOff :
    ∃ formatted feed,
      reformat {} "f.c".toList
          (Source.ofText "f() \x7b struct a \x7b struct b \x7b int x;".toList) = .ok formatted ∧
        formatted.listing.indentation = 8 ∧
        let reader :=
          Reader.ofSource (Source.ofText "f() \x7b struct a \x7b struct b \x7b int x;".toList)
        let start := ofTokens feed false reader.2
        Feed.ofReader? reader.1 = some feed ∧
          formatted.Balanced {} start.file start.advance.FileCut ∧ start.Regular ∧
          ComesBack start start.statement (Call.statement start).Cut := by
  have run : (reformat {} "f.c".toList (Source.ofText
      "f() \x7b struct a \x7b struct b \x7b int x;".toList)).toOption.any
        (fun formatted => decide (formatted.listing.indentation = 8)) = true := by
    decide +kernel
  obtain ⟨formatted, ok, deeper⟩ := exists_ok_of_any run
  obtain ⟨calls, _, _, _, regular, _, files⟩ := indentation_balanced
  obtain ⟨feed, found, balanced⟩ := files {} "f.c".toList _ formatted ok
  have start := regular _ feed found false (Reader.ofSource (Source.ofText
    "f() \x7b struct a \x7b struct b \x7b int x;".toList)).2
  exact ⟨formatted, feed, ok, of_decide_eq_true deeper, found, balanced, start,
    calls (.statement _) start⟩

end CListing
