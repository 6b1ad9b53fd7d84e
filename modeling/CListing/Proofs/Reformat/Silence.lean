import CListing.Proofs.Listing.Carried
import CListing.Proofs.Reformat.Conservation

/-!
# Runs with an empty log

A run that notes nothing reads a source to its end, finds no open literal and no open comment,
misses no token and ends with the indentation that it began with. Its listing is written for the
items of the source and holds no report. Read back, it is woven of these items, as far as their
directives come back as they are.
-/

namespace CListing

open Scan

namespace Formatted

/-- The joints in the listing of a sequence of items. -/
def jointsOf (layout : Layout) (name : List Char) (items : List Item) : List Joint :=
  (Listing.blank layout name).joints [] (Formatter.ofItems items).script.toList

/-- The items are those of a source of which a run notes nothing. -/
structure Silent (layout : Layout) (name : List Char) (items : List Item) : Prop where
  acceptable : layout.fault? = none
  missing : (Formatter.ofItems items).missing = 0
  balanced : (listingOf layout name items).indentation = 0

theorem balanceNote_eq_nil_iff (listing : Listing) :
    balanceNote listing = [] ↔ listing.indentation = 0 := by
  unfold balanceNote
  split <;> simp [*]

/-- A run that notes nothing tells what its source is like. -/
theorem exists_silent {settings : Settings} {name : List Char} {source : Source}
    {formatted : Formatted} (ok : reformat settings name source = .ok formatted)
    (silent : formatted.notes = []) :
    ∃ items, Reads source.text items true ∧ Silent settings.layout name items ∧
      settings.traced = false ∧ formatted.listing = listingOf settings.layout name items := by
  obtain ⟨acceptable, feed, found, rfl⟩ := reformat_eq_ok_iff.mp ok
  obtain ⟨items, closed, reads, bare, whole⟩ := Feed.exists_items found
  have listing := listing_ofFeed bare settings name (Reader.ofSource source).2
  have missing := missing_ofFeed bare settings name (Reader.ofSource source).2
  obtain ⟨walk, balance⟩ := List.append_eq_nil_iff.mp silent
  obtain ⟨_, quiet, untraced, none_missing⟩ :=
    (Formatter.notes_file_eq_nil_iff (Feed.endsLast_ofReaderWithin found) _ _).mp walk
  rw [Reader.chars_ofSource, whole quiet] at reads
  refine ⟨items, reads, ⟨(Layout.fault?_eq_none_iff _).mpr acceptable, ?_, ?_⟩, untraced, listing⟩
  · rw [← missing]
    exact none_missing
  · rw [← listing]
    exact (balanceNote_eq_nil_iff _).mp balance

/-- Of a source like that a run notes nothing. -/
theorem exists_reformat {settings : Settings} {name : List Char} {source : Source}
    {items : List Item} (reads : Reads source.text items true) (faultless : source.fault? = none)
    (silent : Silent settings.layout name items) (untraced : settings.traced = false) :
    ∃ formatted, reformat settings name source = .ok formatted ∧ formatted.notes = [] ∧
      formatted.listing = listingOf settings.layout name items := by
  have start : (Reader.ofSource source).1.fault? = none ∧ (Reader.ofSource source).2 = [] := by
    rw [Reader.ofSource, Source.faultNote?, faultless]
    unfold Reader.notice
    split <;> exact ⟨rfl, rfl⟩
  rw [← Reader.chars_ofSource] at reads
  obtain ⟨feed, found, bare, _, quiet⟩ :=
    Feed.exists_ofReaderWithin reads (Nat.lt_succ_self _) rfl
  have listing := listing_ofFeed bare settings name (Reader.ofSource source).2
  have missing := missing_ofFeed bare settings name (Reader.ofSource source).2
  refine ⟨ofFeed settings name feed (Reader.ofSource source).2, ?_, ?_, listing⟩
  · have acceptable := (Layout.fault?_eq_none_iff _).mp silent.acceptable
    exact reformat_eq_ok_iff.mpr ⟨acceptable, feed, found, rfl⟩
  · have walk := (Formatter.notes_file_eq_nil_iff (Feed.endsLast_ofReaderWithin found)
      settings.traced _).mpr ⟨start.2, quiet start.1 rfl, untraced, missing.trans silent.missing⟩
    have balance := silent.balanced
    rw [← listing, ← balanceNote_eq_nil_iff] at balance
    exact List.append_eq_nil_iff.mpr ⟨walk, balance⟩

section Listing

variable {layout : Layout} {name : List Char} {items : List Item}

/-- The listing of a source of which nothing is noted is written for its items. -/
theorem exists_written {text : List Char} (reads : Reads text items true)
    (silent : Silent layout name items) (plainName : '\n' ∉ name)
    (unparted : (listingOf layout name items).Unparted) :
    ∃ dangling, Written layout.leftMargin (listingOf layout name items).lines.toList items
      (jointsOf layout name items) dangling := by
  have reportless := Formatter.countP_isReport_ofItems items
  rw [silent.missing] at reportless
  obtain ⟨final, dangling, holds⟩ := Holds.run
    (Formatter.scripted_ofItems reads.sound) reportless (reads.proper rfl)
    (reads.pairwise_dangles rfl) (Holds.blank layout plainName []) (Or.inl rfl) (guarded_named? [])
    (fun contrary => Bool.noConfusion contrary) unparted
  have written := holds.written (pending_listingOf layout name items)
  rw [Listing.layout_run, List.nil_append, List.nil_append] at written
  exact ⟨dangling, written⟩

/-- Read back, the listing is woven of what comes back of the items. It is intact if every joint
holds apart and every row comes back as it was written. -/
theorem woven_render {text : List Char} (reads : Reads text items true)
    (silent : Silent layout name items) (plainName : '\n' ∉ name)
    (unparted : (listingOf layout name items).Unparted) :
    Woven (Source.ofText (listingOf layout name items).render).text
      (items.map (Item.reread layout.leftMargin))
      ((jointsOf layout name items).all (·.HoldsApart) &&
        (listingOf layout name items).lines.toList.all (·.Whole)) := by
  obtain ⟨dangling, written⟩ := exists_written reads silent plainName unparted
  have woven := written.woven Woven.nil fun _ _ contrary => absurd contrary (by simp)
  rw [Listing.render, Source.text_ofText_renderLines]
  simpa using woven

end Listing

end Formatted

end CListing
