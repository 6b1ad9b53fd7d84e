import CListing.Proofs.Listing.Block
import CListing.Proofs.Reformat.Conservation
import CListing.Proofs.Reformat.Preservation

/-!
# Directives are copied

A directive of the source stands in the listing between the same tokens as in the source. Its lines
are copied behind the margin, without the blanks at their ends; a line that is empty then has no
margin either. They stand below each other. Lines of directives count for the page, so a page may
begin between them, where the one before is full, and nothing else does.
-/

namespace CListing

open Scan Text

namespace Listing

/-- The ink of the lines of the source. -/
def inkOfSource (lines : List Line) : List Char :=
  ink ((lines.filter Line.ofSource).flatMap (·.text))

theorem inkOfSource_append (first second : List Line) :
    inkOfSource (first ++ second) = inkOfSource first ++ inkOfSource second := by
  simp [inkOfSource, List.filter_append]

/-- With nothing pending the ink is that of the lines. -/
theorem inkOfSource_lines {listing : Listing} (empty : listing.pending = []) :
    inkOfSource listing.lines.toList = listing.sourceInk := by
  rw [sourceInk, empty, ink_nil, List.append_nil, inkOfSource]

theorem inkOfSource_makeRoom (listing : Listing) :
    inkOfSource listing.makeRoom.lines.toList = inkOfSource listing.lines.toList := by
  rcases lines_makeRoom listing with same | ⟨heading, isHeading, headed⟩
  · rw [same]
  · have hidden : heading.ofSource = false := by
      obtain ⟨origin, text⟩ := heading
      cases origin <;> first | rfl | contradiction
    rw [headed, inkOfSource_append]
    simp [inkOfSource, hidden]

end Listing

open Listing

/-- Where a directive stands in the lines of a listing: the earlier lines have the ink of the items
before it and the later ones that of the items behind it. Between them are its lines, copied and
unbroken. -/
def Copied (layout : Layout) (lines : List Line) (before : List Item)
    (directive : List (List Char)) (after : List Item) : Prop :=
  ∃ earlier block later, lines = earlier ++ block ++ later ∧
    inkOfSource earlier = ink (before.flatMap (·.lexeme)) ∧
    block.filter (!·.isHeading) =
      directive.map (fun line => ⟨.directive, printed layout.leftMargin (trimEnd line)⟩) ∧
    Unbroken layout.linesPerPage earlier block ∧
    inkOfSource later = ink (after.flatMap (·.lexeme))

/-- What a script writes of a directive. -/
theorem Scripted.copied {script : List Command} {before after : List Item} {item : Item}
    {raw : List (List Char)} (scripted : Scripted script (before ++ item :: after))
    (directive : item.isDirective = true) (trimmed : item.lines = raw.map trimEnd)
    {layout : Layout} (positive : 1 ≤ layout.linesPerPage) (name : List Char)
    (ended : ((Listing.blank layout name).run script).pending = []) :
    Copied layout ((Listing.blank layout name).run script).lines.toList before raw after := by
  obtain ⟨first, second, rfl, early, late⟩ := scripted.exists_split directive
  have blank : (Listing.blank layout name).Paginated := ⟨positive, [], Paged.blank layout name⟩
  -- The listing when the directive comes, with the pending line written.
  generalize ready : ((Listing.blank layout name).run first).endLine false = listing
  have frame : listing.layout = layout := by
    rw [← ready, layout_endLine, layout_run]
    rfl
  have empty : listing.pending = [] := by
    rw [← ready, pending_endLine]
  have paginated : listing.Paginated := by
    rw [← ready]
    exact keptByPages_paginated.apply (keptByPages_paginated.run blank first) (.endLine false)
  have inkBefore : listing.sourceInk = ink (before.flatMap (·.lexeme)) := by
    rw [← ready, sourceInk_endLine, sourceInk_run early]
    rfl
  have run : (Listing.blank layout name).run (first ++ item.commands ++ second) =
      (listing.run (item.lines.map .directive)).run second := by
    rw [run_append, run_append, Item.commands, run_cons, apply, ready]
    rfl
  obtain ⟨block, lines, copies, unbroken⟩ := exists_unbroken paginated empty
    (Text.pieces_ne_nil '\n' item.lexeme) fun line member => by
      rw [← Item.lines, trimmed] at member
      obtain ⟨own, _, rfl⟩ := List.mem_map.mp member
      exact trimEnd_trimEnd own
  rw [← Item.lines] at lines copies
  have written := (frame_run_directives empty item.lines).2.2
  obtain ⟨later, whole⟩ := isPrefix_run (listing.run (item.lines.map .directive)) second
  rw [run] at ended ⊢
  refine ⟨listing.makeRoom.lines.toList, block, later, ?_, ?_, ?_, ?_, ?_⟩
  · rw [← whole, lines]
  · rw [inkOfSource_makeRoom, inkOfSource_lines empty, inkBefore]
  · rw [copies, trimmed, List.map_map]
    unfold Listing.copy
    rw [frame]
    rfl
  · rwa [frame] at unbroken
  · have inkBehind := sourceInk_run late (listing.run (item.lines.map .directive))
    rw [← inkOfSource_lines ended, ← whole, inkOfSource_append, inkOfSource_lines written]
      at inkBehind
    exact List.append_cancel_left inkBehind

/-- A source whose reader never stands at a barrier is formatted under every acceptable layout, and
each directive among its items is copied. It stands in the text as lines of which each but the last
is continued, and behind it are the items that come next. In the listing its lines stand between
the items before and behind it: trimmed, behind the margin if they are not empty, and below each
other, with a heading between two of them exactly where the page is full. -/
theorem reformat_copies_directives {source : Source} (free : source.ReadsFreely)
    {settings : Settings} (acceptable : settings.layout.Acceptable) (name : List Char) :
    ∃ items formatted, source.items? = some items ∧
      reformat settings name source = .ok formatted ∧
      ∀ before item after, items = before ++ item :: after → item.isDirective = true →
        ∃ front raw back others, source.text = front ++ joined '\n' raw ++ back ∧
          DirectiveExtent raw back ∧ Reads back after others ∧
          Copied settings.layout formatted.listing.lines.toList before raw after := by
  obtain ⟨items, found⟩ := Option.isSome_iff_exists.mp (source.isSome_items?_iff.mpr free)
  obtain ⟨closed, reads⟩ := Source.items?_eq_some_iff.mp found
  obtain ⟨feed, feedFound, bare⟩ := Source.exists_feed found
  refine ⟨items, Formatted.ofFeed settings name feed (Reader.ofSource source).2, found, ?_, ?_⟩
  · exact reformat_eq_ok_iff.mpr ⟨acceptable, feed, feedFound, rfl⟩
  · rintro before item after rfl directive
    obtain ⟨front, raw, back, text, extent, trimmed, others, later⟩ := reads.exists_extent directive
    refine ⟨front, raw, back, others, text, extent, later, ?_⟩
    rw [Formatted.listing_ofFeed bare]
    exact (Formatter.scripted_ofItems reads.sound).copied directive trimmed
      acceptable.linesPerPage_pos name (Formatted.pending_listingOf settings.layout name _)

/-- A page begins inside the directive, and an indented line keeps its indentation. -/
theorem reformat_copies_directives_paged :
    let source := Source.ofText "int a;\n#define b \\\n  c\nd".toList
    let settings : Settings := { layout := { leftMargin := 4, linesPerPage := 2 } }
    source.ReadsFreely ∧ settings.layout.Acceptable ∧
      ∃ before item after formatted, source.items? = some (before ++ item :: after) ∧
        item = ⟨.directive, "#define b \\\n  c".toList⟩ ∧
        reformat settings "f.c".toList source = .ok formatted ∧
        ∃ front raw back others, source.text = front ++ joined '\n' raw ++ back ∧
          DirectiveExtent raw back ∧ Reads back after others ∧
          Copied settings.layout formatted.listing.lines.toList before raw after := by
  intro source settings
  have free : source.ReadsFreely := by
    rw [← Source.isSome_items?_iff]
    decide +kernel
  have acceptable : settings.layout.Acceptable := by
    rw [← Layout.fault?_eq_none_iff]
    decide
  have found : source.items? = some
      ([⟨.typeSpecifier, "int".toList⟩, ⟨.identifier, ['a']⟩, ⟨.semicolon, [';']⟩] ++
        ⟨.directive, "#define b \\\n  c".toList⟩ :: [⟨.identifier, ['d']⟩]) := by
    decide +kernel
  obtain ⟨items, formatted, same, ok, copied⟩ :=
    reformat_copies_directives free acceptable "f.c".toList
  obtain rfl := Option.some.inj (found.symm.trans same)
  exact ⟨free, acceptable, _, _, _, formatted, found, rfl, ok, copied _ _ _ rfl rfl⟩

/-- A heading parts the lines of a directive where the page is full, and an empty line has no
margin. -/
theorem directive_not_copied :
    (∃ formatted, reformat { layout := { linesPerPage := 2 } } "f.c".toList
        (Source.ofText "int a;\n#define b \\\nc\n".toList) = .ok formatted ∧
      ¬ ["#define b \\".toList, "c".toList] <:+: formatted.listing.lines.toList.map (·.text)) ∧
    ∃ formatted, reformat { layout := { leftMargin := 4 } } "f.c".toList
        (Source.ofText "#define a \\\n\n".toList) = .ok formatted ∧
      ¬ ["    #define a \\".toList, "    ".toList] <:+:
        formatted.listing.lines.toList.map (·.text) := by
  constructor
  · have run : (reformat { layout := { linesPerPage := 2 } } "f.c".toList
        (Source.ofText "int a;\n#define b \\\nc\n".toList)).toOption.any (fun formatted =>
          decide (¬ ["#define b \\".toList, "c".toList] <:+:
            formatted.listing.lines.toList.map (·.text))) = true := by
      decide +kernel
    obtain ⟨formatted, ok, parted⟩ := exists_ok_of_any run
    exact ⟨formatted, ok, of_decide_eq_true parted⟩
  · have run : (reformat { layout := { leftMargin := 4 } } "f.c".toList
        (Source.ofText "#define a \\\n\n".toList)).toOption.any (fun formatted =>
          decide (¬ ["    #define a \\".toList, "    ".toList] <:+:
            formatted.listing.lines.toList.map (·.text))) = true := by
      decide +kernel
    obtain ⟨formatted, ok, bare⟩ := exists_ok_of_any run
    exact ⟨formatted, ok, of_decide_eq_true bare⟩

end CListing
