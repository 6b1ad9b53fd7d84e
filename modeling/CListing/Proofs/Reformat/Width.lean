import CListing.Proofs.Formatter.Script
import CListing.Proofs.Formatter.Shifts
import CListing.Proofs.Reader.Supply
import CListing.Proofs.Reformat.Determinacy

/-!
# Listings keep to their width

The walk along a source changes the depth between lines only. So every line that was filled keeps to
the width, unless it is one lexeme alone. Blanks at the end of a line are never written, and the
only lexemes that end in blanks are those of literals that lack their closing mark.
-/

namespace CListing

open Unicode Scan

namespace Scan

/-- The lexeme of a token that lacks its closing mark lacks it also when read by itself. -/
theorem closed_ofText_lexeme {text : List Char} (noComment : (next text).category ≠ .comment)
    (token : (next text).item.isDirective = false) (isOpen : (next text).closed = false) :
    (ofText (next text).item.lexeme).closed = false := by
  have found := head (text.dropWhile isBlank)
  have whole := text_ofText (text.dropWhile isBlank)
  rw [next] at noComment token isOpen ⊢
  generalize text.dropWhile isBlank = chars at *
  rw [Scan.text, rest_of_open noComment isOpen, List.append_nil] at whole
  have same : (ofText chars).item.lexeme = chars := by
    conv_rhs => rw [← whole]
    generalize ofText chars = scan at noComment token isOpen found
    cases found with
    | ending => rfl
    | comment _ comment => contradiction
    | directive => contradiction
    | token _ _ isToken => exact isToken.lexeme
  rwa [same]

end Scan

/-- A token has no blanks at its end, unless it lacks its closing mark. -/
theorem Reads.trimEnd_lexeme {text : List Char} {items : List Item} {closed : Bool}
    (reads : Reads text items closed) {item : Item} (member : item ∈ items)
    (token : item.isDirective = false) :
    Text.trimEnd item.lexeme = item.lexeme ∨ (ofText item.lexeme).closed = false := by
  induction reads with
  | ending _ => contradiction
  | comment _ _ ih => exact ih member
  | @item text items closed notEnd noComment later ih =>
    have free := (Reads.item notEnd noComment later).free
    rcases List.mem_cons.mp member with rfl | others
    · cases whole : (next text).closed with
      | false => exact Or.inr (closed_ofText_lexeme noComment token whole)
      | true =>
        left
        have proper := (proper_item free notEnd noComment whole).1
        have ink := (proper.spelling token).ink_ends.2.2
        apply Text.trimEnd_eq_self
        intro c last
        rwa [last] at ink
    · exact ih others

/-- The lexemes that a script adds are those of its tokens, and it writes no other text. -/
theorem Scripted.command_mem {script : List Command} {items : List Item}
    (scripted : Scripted script items) {command : Command} (member : command ∈ script) :
    (∀ lexeme spacing, command = .append lexeme spacing →
        ∃ item ∈ items, item.isDirective = false ∧ item.lexeme = lexeme) ∧
      ∀ text indented, command ≠ .write text indented := by
  induction scripted with
  | nil => contradiction
  | silent silent _ ih =>
    rcases List.mem_cons.mp member with rfl | later
    · cases command <;> simp [Command.isSilent] at silent ⊢
    · exact ih later
  | report _ ih =>
    rcases List.mem_cons.mp member with rfl | later
    · simp
    · exact ih later
  | @token item spacing script items token _ _ ih =>
    rcases List.mem_cons.mp member with rfl | later
    · refine ⟨?_, by simp⟩
      rintro lexeme spacing same
      injection same with same _
      exact ⟨item, List.mem_cons_self, token, same⟩
    · refine (ih later).imp_left fun found lexeme spacing same => ?_
      obtain ⟨other, inside, plain, equal⟩ := found lexeme spacing same
      exact ⟨other, List.mem_cons_of_mem _ inside, plain, equal⟩
  | @directive item script items _ _ ih =>
    rcases List.mem_append.mp member with own | later
    · rw [Item.commands] at own
      rcases List.mem_cons.mp own with rfl | line
      · simp
      · obtain ⟨text, _, rfl⟩ := List.mem_map.mp line
        simp
    · refine (ih later).imp_left fun found lexeme spacing same => ?_
      obtain ⟨other, inside, plain, equal⟩ := found lexeme spacing same
      exact ⟨other, List.mem_cons_of_mem _ inside, plain, equal⟩

/-- The filled lines of a listing of items keep to its width. -/
theorem Formatted.fits_listingOf {layout : Layout} (acceptable : layout.Acceptable)
    (name : List Char) {items : List Item} (sound : ∀ item ∈ items, item.Sound) :
    (listingOf layout name items).Fits fun lexeme =>
      ∃ item ∈ items, item.isDirective = false ∧ item.lexeme = lexeme := by
  have scripted := Formatter.scripted_ofItems sound
  have width : 0 ≤ layout.lineWidth := by
    have ten := acceptable.lineWidth_ge
    omega
  have blank := Listing.Fits.blank acceptable.leftMargin_nonneg width
    (fun lexeme => ∃ item ∈ items, item.isDirective = false ∧ item.lexeme = lexeme) name
  refine blank.run (fun _ => rfl) (Formatter.rest?_ofItems items) ?_ ?_
  · intro lexeme spacing member
    exact (scripted.command_mem member).1 lexeme spacing rfl
  · intro text indented member
    exact (scripted.command_mem member).2 text indented rfl

/-- A source whose reader never stands at a barrier is formatted under every acceptable layout. The
depth changes only while no line is pending. Each line of the listing but headings, lines of
directives and reports is no longer than the width, or it is the lexeme of a single token behind the
margin and the indentation, less the blanks at the end of the lexeme; a token whose lexeme ends in
blanks lacks its closing mark. -/
theorem reformat_within_width {source : Source} (free : source.ReadsFreely) {settings : Settings}
    (acceptable : settings.layout.Acceptable) (name : List Char) :
    ∃ items feed formatted, source.items? = some items ∧
      Feed.ofReader? (Reader.ofSource source).1 = some feed ∧
      reformat settings name source = .ok formatted ∧
      (let script :=
          (Formatter.ofTokens feed settings.traced (Reader.ofSource source).2).file.script.toList
       formatted.listing = (Listing.blank settings.layout name).run script ∧
          ∀ before command after, script = before ++ command :: after →
            command.isShift = true →
              ((Listing.blank settings.layout name).run before).pending = []) ∧
      (∀ line ∈ formatted.listing.lines.toList, line.isFilled = true →
        line.text.length ≤ settings.layout.lineWidth ∨
          ∃ depth, ∃ item ∈ items, item.isDirective = false ∧
            line.text = spaces settings.layout.leftMargin ++ spaces depth ++
              Text.trimEnd item.lexeme) ∧
      ∀ item ∈ items, item.isDirective = false →
        Text.trimEnd item.lexeme = item.lexeme ∨ (ofText item.lexeme).closed = false := by
  obtain ⟨items, found⟩ := Option.isSome_iff_exists.mp (source.isSome_items?_iff.mpr free)
  obtain ⟨closed, reads⟩ := Source.items?_eq_some_iff.mp found
  obtain ⟨feed, feedFound, bare⟩ := Source.exists_feed found
  refine ⟨items, feed, Formatted.ofFeed settings name feed (Reader.ofSource source).2, found,
    feedFound, ?_, ⟨rfl, ?_⟩, ?_, ?_⟩
  · exact reformat_eq_ok_iff.mpr ⟨acceptable, feed, feedFound, rfl⟩
  · intro before command after split shift
    have rests := Formatter.rest?_ofItems items
    rw [← Formatter.script_file bare settings.traced (Reader.ofSource source).2, split] at rests
    exact Listing.pending_of_isShift (fun _ => rfl) rests shift
  · intro line member filled
    have fits := Formatted.fits_listingOf acceptable name reads.sound
    rw [← Formatted.listing_ofFeed bare settings name (Reader.ofSource source).2] at fits
    have frame : (Formatted.ofFeed settings name feed (Reader.ofSource source).2).listing.layout =
        settings.layout := Listing.layout_run _ _
    have admitted := fits.lines line member filled
    rw [frame] at admitted
    refine admitted.imp_right ?_
    rintro ⟨depth, _, ⟨item, inside, token, rfl⟩, text⟩
    exact ⟨depth, item, inside, token, text⟩
  · intro item member token
    exact reads.trimEnd_lexeme member token

/-- A name that is longer than a line stands alone behind the indentation. -/
theorem reformat_within_width_long :
    (Source.ofText "f() \x7b abcdefghijk; \x7d".toList).ReadsFreely ∧
      ({ layout := { lineWidth := 10 } } : Settings).layout.Acceptable ∧
      ∃ items formatted,
        (Source.ofText "f() \x7b abcdefghijk; \x7d".toList).items? = some items ∧
          reformat { layout := { lineWidth := 10 } } "f.c".toList
            (Source.ofText "f() \x7b abcdefghijk; \x7d".toList) = .ok formatted ∧
          ∀ line ∈ formatted.listing.lines.toList, line.isFilled = true →
            line.text.length ≤ (10 : Int) ∨
              ∃ depth, ∃ item ∈ items, item.isDirective = false ∧
                line.text = spaces 0 ++ spaces depth ++ Text.trimEnd item.lexeme := by
  have free : (Source.ofText "f() \x7b abcdefghijk; \x7d".toList).ReadsFreely := by
    rw [← Source.isSome_items?_iff]
    decide +kernel
  have acceptable : ({ layout := { lineWidth := 10 } } : Settings).layout.Acceptable := by
    rw [← Layout.fault?_eq_none_iff]
    decide
  obtain ⟨items, _, formatted, found, _, ok, _, lines, _⟩ :=
    reformat_within_width free acceptable "f.c".toList
  exact ⟨free, acceptable, items, formatted, found, ok, lines⟩

/-- A literal without its closing quote that ends in a blank: its line holds all of it but the
blank, and is longer than the width. -/
theorem reformat_not_within_width :
    ∃ items formatted,
      (Source.ofText "\"abcdefghijk ".toList).items? = some items ∧
        reformat { layout := { lineWidth := 10 } } "f.c".toList
            (Source.ofText "\"abcdefghijk ".toList) = .ok formatted ∧
        ∃ line ∈ formatted.listing.lines.toList, line.isFilled = true ∧
          ¬ (line.text.length ≤ (10 : Int) ∨
            ∃ depth, ∃ item ∈ items, line.text = spaces 0 ++ spaces depth ++ item.lexeme) := by
  have found : (Source.ofText "\"abcdefghijk ".toList).items? =
      some [{ category := .string, lexeme := "\"abcdefghijk ".toList }] := by
    decide +kernel
  have run : (reformat { layout := { lineWidth := 10 } } "f.c".toList
      (Source.ofText "\"abcdefghijk ".toList)).toOption.any (fun formatted =>
        decide (formatted.listing.lines.toList.filter Line.isFilled =
          [{ origin := .code, text := "\"abcdefghijk".toList }])) = true := by
    decide +kernel
  obtain ⟨formatted, ok, only⟩ := exists_ok_of_any run
  have line := (decide_eq_true_iff.mp only).symm ▸ List.mem_singleton_self _
  obtain ⟨inside, filled⟩ := List.mem_filter.mp line
  refine ⟨_, formatted, found, ok, _, inside, filled, ?_⟩
  rintro (narrow | ⟨depth, item, member, text⟩)
  · contradiction
  · -- The line ends in a letter, the only lexeme in a blank.
    obtain rfl := List.mem_singleton.mp member
    have last := congrArg List.getLast? text
    rw [List.getLast?_append] at last
    have same : 'k' = ' ' := Option.some.inj last
    contradiction

end CListing
