import CListing.Proofs.Listing.Bulk
import CListing.Proofs.Reformat.Preservation

/-!
# Listings of listings

A listing that has the tokens of its source is its own listing, unless a directive of the source
does not come back as it was: then the second listing is bulkier.
-/

namespace CListing

namespace Item

theorem keepsTokens_reread (margin : Int) : KeepsTokens (reread margin) where
  token token := reread_of_token margin token
  directive {item} directive := by
    rw [isDirective_reread, directive]

/-- The items come back as they were if and only if the directives among them do. -/
theorem map_reread_eq_self_iff {items : List Item} (proper : ∀ item ∈ items, item.Proper)
    (margin : Int) :
    items.map (reread margin) = items ↔
      ∀ item ∈ items, item.isDirective = true → item.ComesBack margin := by
  have each : items.map (reread margin) = items.map id ↔
      ∀ item ∈ items, item.reread margin = id item := List.map_inj_left
  rw [List.map_id] at each
  rw [each]
  constructor
  · intro same item member directive
    exact (reread_eq_self_iff (proper item member) directive margin).mp (same item member)
  · intro comesBack item member
    cases directive : item.isDirective with
    | true =>
      exact (reread_eq_self_iff (proper item member) directive margin).mpr
        (comesBack item member directive)
    | false => exact reread_of_token margin directive

end Item

namespace Formatted

variable {layout : Layout} {name : List Char} {items : List Item} {text : List Char}

/-- If what comes back of the items has their listing, then it is the items. -/
theorem map_reread_eq_of_render_eq (reads : Reads text items true) (plainName : '\n' ∉ name)
    (same : (listingOf layout name (items.map (Item.reread layout.leftMargin))).render =
      (listingOf layout name items).render) :
    items.map (Item.reread layout.leftMargin) = items := by
  have proper := reads.proper rfl
  have properDirective {item : Item} (member : item ∈ items.filter Item.isDirective) :
      item.Proper ∧ item.isDirective = true := by
    rw [List.mem_filter] at member
    exact ⟨proper item member.1, member.2⟩
  have told := Formatter.retold_ofItems (Item.keepsTokens_reread layout.leftMargin) reads.sound
  have start : Parallel (Listing.blank layout name) (Listing.blank layout name) 0 0 :=
    Parallel.refl plainName
  have listings := start.run told (by
    intro item member
    obtain ⟨properItem, directive⟩ := properDirective member
    constructor
    · exact (properItem.isDirective_lines directive).trimmed
    · rw [Item.lines_reread properItem directive]
      exact (Item.isDirective_rereadLines properItem directive layout.leftMargin).trimmed)
  have bulks : (listingOf layout name items).bulk + (0 + ((items.filter Item.isDirective).map
        fun item => (item.reread layout.leftMargin).bulk layout.leftMargin).sum) =
      (listingOf layout name (items.map (Item.reread layout.leftMargin))).bulk +
        (0 + ((items.filter Item.isDirective).map (Item.bulk layout.leftMargin)).sum) :=
    listings.bulk
  rw [Listing.bulk, Listing.bulk, same] at bulks
  rcases map_eq_or_sum_lt fun item member =>
      Item.bulk_reread (properDirective member).1 (properDirective member).2 layout.leftMargin with
    kept | bulkier
  · rw [Item.map_reread_eq_self_iff fun item member => (properDirective member).1] at kept
    rw [Item.map_reread_eq_self_iff proper]
    intro item member directive
    exact kept item (List.mem_filter.mpr ⟨member, directive⟩) directive
  · rw [List.map_map] at bulkier
    have unchanged := Nat.add_left_cancel bulks
    rw [Nat.zero_add, Nat.zero_add] at unchanged
    exact absurd unchanged.symm (Nat.ne_of_lt bulkier)

end Formatted

/-- Let a run note nothing, let no page begin inside a directive, and let the listing have the
tokens of the source. Then the listing is its own listing, of which nothing is noted either, exactly
if every directive of the source comes back as it was. -/
theorem reformat_idempotent_iff {settings : Settings} {name : List Char} {source : Source}
    {formatted : Formatted} (ok : reformat settings name source = .ok formatted)
    (silent : formatted.notes = []) (plainName : '\n' ∉ name)
    (unparted : formatted.listing.Unparted)
    (kept : (Source.ofText formatted.listing.render).tokens? = source.tokens?) :
    ∃ items, source.items? = some items ∧
      ((∃ again, reformat settings name (Source.ofText formatted.listing.render) = .ok again ∧
          again.listing.render = formatted.listing.render ∧ again.notes = []) ↔
        ∀ item ∈ items, item.isDirective = true →
          item.ComesBack settings.layout.leftMargin) := by
  obtain ⟨items, reads, quiet, untraced, listing⟩ := Formatted.exists_silent ok silent
  have found := Source.items?_eq_some_iff.mpr ⟨true, reads⟩
  rw [listing] at unparted kept ⊢
  rw [Source.tokens?.eq_def source, found, Option.map_some,
    Formatted.tokens?_render_iff reads quiet plainName unparted, ← Formatted.intact_iff] at kept
  have back := (Formatted.woven_render reads quiet plainName unparted).reads kept
  refine ⟨items, found, ?_⟩
  rw [← Item.map_reread_eq_self_iff (reads.proper rfl)]
  constructor
  · rintro ⟨again, okAgain, same, silentAgain⟩
    obtain ⟨others, otherReads, _, _, otherListing⟩ := Formatted.exists_silent okAgain silentAgain
    rw [otherListing, (otherReads.unique back).1] at same
    exact Formatted.map_reread_eq_of_render_eq reads plainName same
  · intro same
    rw [same] at back
    obtain ⟨again, okAgain, silentAgain, sameListing⟩ :=
      Formatted.exists_reformat back rfl quiet untraced
    exact ⟨again, okAgain, by rw [sameListing], silentAgain⟩

/-- A directive of two lines at the margin comes back as it was. -/
theorem reformat_idempotent_iff_directive :
    ∃ formatted, reformat {} "f.c".toList (Source.ofText "#if A \\\n  B\nint x;".toList) =
        .ok formatted ∧
      formatted.notes = [] ∧ '\n' ∉ "f.c".toList ∧ formatted.listing.Unparted ∧
      (Source.ofText formatted.listing.render).tokens? =
        (Source.ofText "#if A \\\n  B\nint x;".toList).tokens? ∧
      ∃ items, (Source.ofText "#if A \\\n  B\nint x;".toList).items? = some items ∧
        ((∃ again, reformat {} "f.c".toList (Source.ofText formatted.listing.render) = .ok again ∧
            again.listing.render = formatted.listing.render ∧ again.notes = []) ↔
          ∀ item ∈ items, item.isDirective = true → item.ComesBack 0) := by
  have run : (reformat {} "f.c".toList
      (Source.ofText "#if A \\\n  B\nint x;".toList)).toOption.any (fun formatted =>
        decide (formatted.notes = []) && decide formatted.listing.Unparted &&
          decide ((Source.ofText formatted.listing.render).tokens? =
            (Source.ofText "#if A \\\n  B\nint x;".toList).tokens?)) = true := by
    decide +kernel
  obtain ⟨formatted, ok, facts⟩ := exists_ok_of_any run
  rw [Bool.and_eq_true, Bool.and_eq_true, decide_eq_true_iff, decide_eq_true_iff,
    decide_eq_true_iff] at facts
  obtain ⟨⟨silent, unparted⟩, kept⟩ := facts
  have plainName : '\n' ∉ "f.c".toList := by decide
  exact ⟨formatted, ok, silent, plainName, unparted, kept,
    reformat_idempotent_iff ok silent plainName unparted kept⟩

/-- Behind a margin the second line of a directive moves to the right with every listing, although
the listing has the tokens of the source and no page begins inside the directive. -/
theorem reformat_not_idempotent :
    ∃ formatted, reformat { layout := { leftMargin := 4 } } "f.c".toList
        (Source.ofText "#define a \\\nb\n".toList) = .ok formatted ∧
      formatted.notes = [] ∧ '\n' ∉ "f.c".toList ∧ formatted.listing.Unparted ∧
      (Source.ofText formatted.listing.render).tokens? =
        (Source.ofText "#define a \\\nb\n".toList).tokens? ∧
      ¬ ∃ again, reformat { layout := { leftMargin := 4 } } "f.c".toList
          (Source.ofText formatted.listing.render) = .ok again ∧
        again.listing.render = formatted.listing.render ∧ again.notes = [] := by
  have run : (reformat { layout := { leftMargin := 4 } } "f.c".toList
      (Source.ofText "#define a \\\nb\n".toList)).toOption.any (fun formatted =>
        (decide (formatted.notes = []) && decide formatted.listing.Unparted &&
          decide ((Source.ofText formatted.listing.render).tokens? =
            (Source.ofText "#define a \\\nb\n".toList).tokens?)) &&
          (reformat { layout := { leftMargin := 4 } } "f.c".toList
            (Source.ofText formatted.listing.render)).toOption.any fun again =>
              decide (again.listing.render ≠ formatted.listing.render)) = true := by
    decide +kernel
  obtain ⟨formatted, ok, facts⟩ := exists_ok_of_any run
  simp only [Bool.and_eq_true, decide_eq_true_iff] at facts
  obtain ⟨⟨⟨silent, unparted⟩, kept⟩, second⟩ := facts
  obtain ⟨other, otherOk, differs⟩ := exists_ok_of_any second
  rw [decide_eq_true_iff] at differs
  refine ⟨formatted, ok, silent, by decide, unparted, kept, ?_⟩
  rintro ⟨again, okAgain, same, _⟩
  rw [otherOk, Except.ok.injEq] at okAgain
  rw [← okAgain] at same
  exact differs same

end CListing
