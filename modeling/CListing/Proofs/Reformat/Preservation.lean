import CListing.Proofs.Reformat.Silence

/-!
# Tokens in a listing

The listing of a source of which nothing is noted has the tokens of the source, in their order,
unless two of them run together where no blank was left between them, or a line that belongs to a
literal is taken for a page heading. Directives whose lines stand on two pages are left out here.
-/

namespace CListing

namespace Formatted

variable {layout : Layout} {name : List Char} {items : List Item} {text : List Char}

/-- The flag of a listing, condition by condition. -/
theorem intact_iff :
    ((jointsOf layout name items).all (·.HoldsApart) &&
        (listingOf layout name items).lines.toList.all (·.Whole)) = true ↔
      (∀ joint ∈ jointsOf layout name items, joint.HoldsApart) ∧
        ∀ line ∈ (listingOf layout name items).lines.toList, line.Whole := by
  simp only [Bool.and_eq_true, List.all_eq_true, decide_eq_true_iff]

/-- The tokens come back if and only if the listing is intact. -/
theorem tokens?_render_iff (reads : Reads text items true) (silent : Silent layout name items)
    (plainName : '\n' ∉ name) (unparted : (listingOf layout name items).Unparted) :
    (Source.ofText (listingOf layout name items).render).tokens? =
        some (items.filter (!·.isDirective)) ↔
      (∀ joint ∈ jointsOf layout name items, joint.HoldsApart) ∧
        ∀ line ∈ (listingOf layout name items).lines.toList, line.Whole := by
  have woven := woven_render reads silent plainName unparted
  rw [← intact_iff]
  constructor
  · intro kept
    obtain ⟨others, found, same⟩ := Option.map_eq_some_iff.mp kept
    obtain ⟨closed, back⟩ := Source.items?_eq_some_iff.mp found
    apply woven.intact_of_reads back
    rw [same, Item.filter_reread]
  · intro intact
    have found := Source.items?_eq_some_iff.mpr ⟨true, woven.reads intact⟩
    rw [Source.tokens?, found, Option.map_some, Item.filter_reread]

end Formatted

/-- If a run notes nothing and no page begins inside a directive, then the listing has the tokens of
the source exactly if no two neighbours without a blank between them run together and every row of
lexemes comes back as it was written. -/
theorem reformat_tokens?_iff {settings : Settings} {name : List Char} {source : Source}
    {formatted : Formatted} (ok : reformat settings name source = .ok formatted)
    (silent : formatted.notes = []) (plainName : '\n' ∉ name)
    (unparted : formatted.listing.Unparted) :
    ∃ items, source.items? = some items ∧
      ((Source.ofText formatted.listing.render).tokens? = source.tokens? ↔
        (∀ joint ∈ Formatted.jointsOf settings.layout name items, joint.HoldsApart) ∧
          ∀ line ∈ formatted.listing.lines.toList, line.Whole) := by
  obtain ⟨items, reads, quiet, _, listing⟩ := Formatted.exists_silent ok silent
  have found := Source.items?_eq_some_iff.mpr ⟨true, reads⟩
  rw [listing] at unparted ⊢
  refine ⟨items, found, ?_⟩
  rw [Source.tokens?.eq_def source, found, Option.map_some]
  exact Formatted.tokens?_render_iff reads quiet plainName unparted

/-- A page that begins inside a directive ends it: what is left of it comes back as tokens. -/
example : (reformat { layout := { linesPerPage := 1 } } "f.c".toList
    (Source.ofText "#define a \\\nb\n".toList)).toOption.any (fun formatted =>
      decide (formatted.notes = []) && !decide formatted.listing.Unparted &&
        decide ((Source.ofText formatted.listing.render).tokens? ≠
          (Source.ofText "#define a \\\nb\n".toList).tokens?)) = true := by
  decide +kernel

/-- A source with a directive of two lines. -/
theorem reformat_tokens?_iff_directive :
    ∃ formatted, reformat {} "f.c".toList (Source.ofText "#if A \\\n  B\nint x;".toList) =
        .ok formatted ∧
      formatted.notes = [] ∧ '\n' ∉ "f.c".toList ∧ formatted.listing.Unparted ∧
      ∃ items, (Source.ofText "#if A \\\n  B\nint x;".toList).items? = some items ∧
        ((Source.ofText formatted.listing.render).tokens? =
            (Source.ofText "#if A \\\n  B\nint x;".toList).tokens? ↔
          (∀ joint ∈ Formatted.jointsOf {} "f.c".toList items, joint.HoldsApart) ∧
            ∀ line ∈ formatted.listing.lines.toList, line.Whole) := by
  have run : (reformat {} "f.c".toList
      (Source.ofText "#if A \\\n  B\nint x;".toList)).toOption.any (fun formatted =>
        decide (formatted.notes = []) && decide formatted.listing.Unparted) = true := by
    decide +kernel
  obtain ⟨formatted, ok, facts⟩ := exists_ok_of_any run
  rw [Bool.and_eq_true, decide_eq_true_iff, decide_eq_true_iff] at facts
  have plainName : '\n' ∉ "f.c".toList := by decide
  exact ⟨formatted, ok, facts.1, plainName, facts.2,
    reformat_tokens?_iff ok facts.1 plainName facts.2⟩

/-- Two minus signs with a blank between them in the source run together in the listing. -/
theorem reformat_tokens?_ne :
    ∃ formatted, reformat {} "f.c".toList (Source.ofText "int a[3 - -2];".toList) =
        .ok formatted ∧
      formatted.notes = [] ∧ '\n' ∉ "f.c".toList ∧
      (Source.ofText formatted.listing.render).tokens? ≠
        (Source.ofText "int a[3 - -2];".toList).tokens? := by
  have run : (reformat {} "f.c".toList
      (Source.ofText "int a[3 - -2];".toList)).toOption.any (fun formatted =>
        decide (formatted.notes = []) &&
          decide ((Source.ofText formatted.listing.render).tokens? ≠
            (Source.ofText "int a[3 - -2];".toList).tokens?)) = true := by
    decide +kernel
  obtain ⟨formatted, ok, facts⟩ := exists_ok_of_any run
  rw [Bool.and_eq_true, decide_eq_true_iff, decide_eq_true_iff] at facts
  exact ⟨formatted, ok, facts.1, by decide, facts.2⟩

end CListing
