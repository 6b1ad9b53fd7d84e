import CListing.Proofs.Formatter.Bare
import CListing.Reformat

/-!
# What a listing depends on

A listing depends on the tokens and directives of the source, the layout and the name alone. White
space, line breaks, comments and headings of earlier listings leave no trace in it, and neither
does the choice of what goes to the log.
-/

namespace CListing

/-- What holds of the result of a run that comes off holds of some result. -/
theorem exists_ok_of_any {result : Except Refusal Formatted} {holds : Formatted → Bool}
    (run : result.toOption.any holds = true) :
    ∃ formatted, result = .ok formatted ∧ holds formatted = true := by
  cases result with
  | error refusal => contradiction
  | ok formatted => exact ⟨formatted, rfl, run⟩

namespace Formatted

/-- The listing of a sequence of items. -/
def listingOf (layout : Layout) (name : List Char) (items : List Item) : Listing :=
  (Listing.blank layout name).run (Formatter.ofItems items).script.toList

section Feed

variable {feed : Feed} {items : List Item} (bare : feed.bare = Feed.ofItems items)
variable (settings : Settings) (name : List Char) (notes : List Note)
include bare

/-- A feed has the listing of its items. -/
theorem listing_ofFeed :
    (ofFeed settings name feed notes).listing = listingOf settings.layout name items := by
  have script := Formatter.script_file bare settings.traced notes
  exact congrArg (fun commands => (Listing.blank settings.layout name).run commands.toList) script

theorem missing_ofFeed :
    (ofFeed settings name feed notes).missing = (Formatter.ofItems items).missing := by
  have missing := congrArg Formatter.missing (Formatter.bare_file bare settings.traced notes)
  exact missing

end Feed

/-- A source without items has no listing. -/
theorem ofSource?_eq_none {source : Source} (missing : source.items? = none)
    (settings : Settings) (name : List Char) : ofSource? settings name source = none := by
  have noFeed : Feed.ofReader? (Reader.ofSource source).1 = none := by
    cases found : Feed.ofReader? (Reader.ofSource source).1 with
    | none => rfl
    | some feed =>
      obtain ⟨items, closed, reads⟩ := Feed.exists_reads found
      rw [Reader.chars_ofSource] at reads
      exact absurd reads (Source.items?_eq_none_iff.mp missing items closed)
  rw [ofSource?_eq, noFeed]
  rfl

/-- Whatever is formatted has an acceptable layout and the listing of its items. -/
theorem exists_items_of_ok {settings : Settings} {name : List Char} {source : Source}
    {formatted : Formatted} (ok : reformat settings name source = .ok formatted) :
    settings.layout.Acceptable ∧ ∃ items closed, Reads source.text items closed ∧
      formatted.listing = listingOf settings.layout name items := by
  obtain ⟨acceptable, feed, found, rfl⟩ := reformat_eq_ok_iff.mp ok
  obtain ⟨items, closed, reads, bare, _⟩ := Feed.exists_items found
  rw [Reader.chars_ofSource] at reads
  exact ⟨acceptable, items, closed, reads, listing_ofFeed bare settings name _⟩

/-- What shows of a listing and its making, the log left out. -/
structure Visible where
  text : List Char
  linesWritten : Nat
  pagesWritten : Nat
  indentation : Int
  missing : Nat
deriving DecidableEq, Repr

/-- What shows of a formatted source. -/
def visible (formatted : Formatted) : Visible where
  text := formatted.listing.render
  linesWritten := formatted.listing.linesWritten
  pagesWritten := formatted.listing.pagesWritten
  indentation := formatted.listing.indentation
  missing := formatted.missing

end Formatted

/-- Sources with the same tokens and directives have the same listing under the same layout and
name, or none of them has one; whether the tokens are logged does not matter. -/
theorem reformat_visible_congr {first second : Source} (sameItems : first.items? = second.items?)
    {settings other : Settings} (sameLayout : settings.layout = other.layout) (name : List Char) :
    (reformat settings name first).map Formatted.visible =
      (reformat other name second).map Formatted.visible := by
  unfold reformat
  rw [← sameLayout]
  cases settings.layout.fault? with
  | some fault => rfl
  | none =>
    cases found : first.items? with
    | none =>
      rw [Formatted.ofSource?_eq_none found,
        Formatted.ofSource?_eq_none (sameItems.symm.trans found)]
    | some items =>
      obtain ⟨feed, firstFeed, bare⟩ := Source.exists_feed found
      obtain ⟨others, secondFeed, otherBare⟩ :=
        Source.exists_feed (sameItems.symm.trans found)
      rw [Formatted.ofSource?_eq, Formatted.ofSource?_eq, firstFeed, secondFeed]
      simp only [Except.map, Option.map_some, Except.ok.injEq, Formatted.visible]
      rw [Formatted.listing_ofFeed bare, Formatted.listing_ofFeed otherBare,
        Formatted.missing_ofFeed bare, Formatted.missing_ofFeed otherBare, sameLayout]

/-- Comments, blanks and a heading of an earlier listing between the same tokens do not show. -/
theorem reformat_visible_respaced :
    (Source.ofText "int x;\n".toList).items? =
        (Source.ofText "\x0cold PAGE 1\n/* one */ int\n  x // two\n ;".toList).items? ∧
      (reformat { traced := true } "a".toList (Source.ofText "int x;\n".toList)).map
          Formatted.visible =
        (reformat {} "a".toList
          (Source.ofText "\x0cold PAGE 1\n/* one */ int\n  x // two\n ;".toList)).map
          Formatted.visible := by
  have sameItems : (Source.ofText "int x;\n".toList).items? =
      (Source.ofText "\x0cold PAGE 1\n/* one */ int\n  x // two\n ;".toList).items? := by
    decide +kernel
  exact ⟨sameItems, reformat_visible_congr sameItems rfl "a".toList⟩

end CListing
