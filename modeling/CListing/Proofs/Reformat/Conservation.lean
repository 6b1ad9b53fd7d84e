import CListing.Proofs.Formatter.Script
import CListing.Proofs.Listing.Ink
import CListing.Proofs.Reformat.Determinacy

/-!
# Nothing of the source is lost

The lines of a listing that are of the source have the ink of its tokens and directives, in the
order of the source, whatever is missing in it and however its braces are balanced. At the end no
line is pending. A source has a listing if its reader never stands at a barrier, and the walk to it
comes off.
-/

namespace CListing

open Text

namespace Listing

/-- Lines of directives add their ink one after the other. -/
theorem sourceInk_run_directives (listing : Listing) (texts : List (List Char)) :
    (listing.run (texts.map .directive)).sourceInk = listing.sourceInk ++ ink texts.flatten := by
  induction texts generalizing listing with
  | nil => simp
  | cons text texts ih =>
    have first : (listing.apply (.directive text)).sourceInk = listing.sourceInk ++ ink text := by
      rw [apply, sourceInk_writeLine _ rfl (pending_endLine listing false), sourceInk_endLine]
    rw [List.map_cons, run_cons, ih, first, List.flatten_cons, ink_append, List.append_assoc]

theorem sourceInk_apply_of_isSilent (listing : Listing) {command : Command}
    (silent : command.isSilent = true) : (listing.apply command).sourceInk = listing.sourceInk := by
  cases command with
  | indent => rfl
  | unindent => rfl
  | endLine forced => exact sourceInk_endLine listing forced
  | skipLine =>
    rw [apply, sourceInk_writeLine _ rfl (pending_endLine listing false), sourceInk_endLine,
      ink_nil, List.append_nil]
  | endPage => rfl
  | _ => contradiction

/-- A script adds the ink of its items. -/
theorem sourceInk_run {script : List Command} {items : List Item}
    (scripted : Scripted script items) (listing : Listing) :
    (listing.run script).sourceInk = listing.sourceInk ++ ink (items.flatMap (·.lexeme)) := by
  induction scripted generalizing listing with
  | nil => simp
  | silent silent _ ih => rw [run_cons, ih, sourceInk_apply_of_isSilent listing silent]
  | report _ ih => rw [run_cons, ih, apply, sourceInk_writeLine_of_not_counts listing rfl]
  | token _ _ _ ih =>
    rw [run_cons, ih, apply, sourceInk_append, List.flatMap_cons, ink_append, List.append_assoc]
  | @directive item script items _ _ ih =>
    have blank : Unicode.isBlank '\n' = true := by decide
    rw [run_append, ih, Item.commands, run_cons, sourceInk_run_directives, apply,
      sourceInk_endLine, ink_flatten_pieces blank, List.flatMap_cons, ink_append,
      List.append_assoc]

end Listing

namespace Formatter

theorem script_endLine (formatter : Formatter Feed) :
    formatter.endLine.script.toList = formatter.script.toList ++ [.endLine false] :=
  Array.toList_push

/-- The walk ends the pending line last. -/
theorem exists_script_ofItems (items : List Item) :
    ∃ script, (ofItems items).script.toList = script ++ [.endLine false] := by
  rw [ofItems, file]
  exact ⟨_, script_endLine _⟩

end Formatter

/-- At the end no line is pending. -/
theorem Formatted.pending_listingOf (layout : Layout) (name : List Char) (items : List Item) :
    (listingOf layout name items).pending = [] := by
  obtain ⟨script, split⟩ := Formatter.exists_script_ofItems items
  rw [listingOf, split, Listing.run_append]
  exact Listing.pending_endLine _ false

/-- A source whose reader never stands at a barrier is formatted under every acceptable layout: the
walk comes off, no line is left pending, and the lines of the listing, headings and reports left
out, have the ink of the tokens and directives of the source in their order. -/
theorem reformat_conserves_ink {source : Source} (free : source.ReadsFreely) {settings : Settings}
    (acceptable : settings.layout.Acceptable) (name : List Char) :
    ∃ items feed, source.items? = some items ∧
      Feed.ofReader? (Reader.ofSource source).1 = some feed ∧
      (Formatter.ofTokens feed settings.traced (Reader.ofSource source).2).file.ComesOff ∧
      ∃ formatted, reformat settings name source = .ok formatted ∧
        formatted.listing.pending = [] ∧
        ink ((formatted.listing.lines.toList.filter Line.ofSource).flatMap (·.text)) =
          ink (items.flatMap (·.lexeme)) := by
  obtain ⟨items, found⟩ := Option.isSome_iff_exists.mp (source.isSome_items?_iff.mpr free)
  obtain ⟨closed, reads⟩ := Source.items?_eq_some_iff.mp found
  obtain ⟨feed, feedFound, bare⟩ := Source.exists_feed found
  refine ⟨items, feed, found, feedFound, Formatter.comesOff_file _ _ _, ?_⟩
  refine ⟨Formatted.ofFeed settings name feed (Reader.ofSource source).2, ?_, ?_, ?_⟩
  · exact reformat_eq_ok_iff.mpr ⟨acceptable, feed, feedFound, rfl⟩
  · rw [Formatted.listing_ofFeed bare]
    exact Formatted.pending_listingOf _ _ _
  · have run := Listing.sourceInk_run (Formatter.scripted_ofItems reads.sound)
      (Listing.blank settings.layout name)
    have empty := Formatted.pending_listingOf settings.layout name items
    have start : (Listing.blank settings.layout name).sourceInk = [] := rfl
    rw [Formatted.listing_ofFeed bare]
    rw [start, List.nil_append] at run
    rw [← run, Listing.sourceInk, ← Formatted.listingOf, empty, ink_nil, List.append_nil]

/-- In a function without its closing parenthesis and brace, tokens are reported missing and the
indentation is not balanced at the end. -/
theorem reformat_conserves_ink_unbalanced :
    (Source.ofText "int f(a \x7b".toList).ReadsFreely ∧ ({} : Settings).layout.Acceptable ∧
      ∃ items feed, (Source.ofText "int f(a \x7b".toList).items? = some items ∧
        Feed.ofReader? (Reader.ofSource (Source.ofText "int f(a \x7b".toList)).1 = some feed ∧
        (Formatter.ofTokens feed false
          (Reader.ofSource (Source.ofText "int f(a \x7b".toList)).2).file.ComesOff ∧
        ∃ formatted,
          reformat {} "f.c".toList (Source.ofText "int f(a \x7b".toList) = .ok formatted ∧
          formatted.listing.pending = [] ∧
          ink ((formatted.listing.lines.toList.filter Line.ofSource).flatMap (·.text)) =
            ink (items.flatMap (·.lexeme)) := by
  have free : (Source.ofText "int f(a \x7b".toList).ReadsFreely := by
    rw [← Source.isSome_items?_iff]
    decide +kernel
  have acceptable : ({} : Settings).layout.Acceptable := by
    rw [← Layout.fault?_eq_none_iff]
    decide
  exact ⟨free, acceptable, reformat_conserves_ink free acceptable "f.c".toList⟩

end CListing
