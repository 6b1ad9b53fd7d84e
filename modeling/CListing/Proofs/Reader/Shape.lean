import CListing.Proofs.Reader.Items
import CListing.Proofs.Scan.Directive

/-!
# What items look like

In a text without open literals every token is a spelling of its category, and every directive
consists of lines of a directive. A directive whose last line ends in a backslash is the last item.
-/

namespace CListing

open Scan

namespace Item

/-- The item is a spelling of a token, or lines of a directive. -/
inductive Proper : Item → Prop
  | token {item : Item} (spelling : Spelling item.category item.lexeme) : Proper item
  | directive {lines : List (List Char)} {dangling : Bool}
      (isDirective : IsDirective lines dangling) :
      Proper { category := .directive, lexeme := Text.joined '\n' lines }

/-- A proper item that is no directive is a token. -/
theorem Proper.spelling {item : Item} (proper : item.Proper) (token : item.isDirective = false) :
    Spelling item.category item.lexeme := by
  cases proper with
  | token spelling => exact spelling
  | directive => contradiction

/-- The lines of a directive. -/
def lines (item : Item) : List (List Char) :=
  Text.pieces '\n' item.lexeme

/-- The item is a directive whose last line ends in a backslash. -/
def dangles (item : Item) : Bool :=
  item.isDirective && decide (item.lexeme.getLast? = some '\\')

/-- The lines of a proper directive are lines of a directive. -/
theorem Proper.isDirective_lines {item : Item} (proper : item.Proper)
    (directive : item.isDirective = true) : IsDirective item.lines item.dangles := by
  cases proper with
  | token spelling =>
    rw [isDirective_of_isToken spelling.isToken] at directive
    contradiction
  | @directive lines dangling isDirective =>
    have kept : Text.pieces '\n' (Text.joined '\n' lines) = lines :=
      Text.pieces_joined isDirective.shape.ne_nil isDirective.plain
    have same : dangling = decide ((Text.joined '\n' lines).getLast? = some '\\') := by
      rw [Bool.eq_iff_iff, decide_eq_true_iff, isDirective.shape.getLast?_joined]
    rw [same] at isDirective
    rw [Item.lines, kept]
    exact isDirective

end Item

namespace Scan

/-- A closed piece that counts as an item is a proper one. -/
theorem proper_item {text : List Char} (free : ¬ AtBarrier (text.dropWhile Unicode.isBlank))
    (notEnd : (next text).category ≠ .endOfFile) (noComment : (next text).category ≠ .comment)
    (closed : (next text).closed = true) :
    (next text).item.Proper ∧ ((next text).item.dangles = true → (next text).rest = []) := by
  rw [ne_eq, category_next_eq_endOfFile_iff] at notEnd
  have ink := List.head?_dropWhile_not Unicode.isBlank text
  rw [next] at noComment closed ⊢
  generalize text.dropWhile Unicode.isBlank = chars at free notEnd noComment closed ink ⊢
  cases chars with
  | nil => contradiction
  | cons c rest =>
    by_cases directive : c = '#'
    · subst directive
      rw [ofText_directive]
      obtain ⟨dangling, isDirective, atEnd⟩ := isDirective_directive rest
      refine ⟨Item.Proper.directive isDirective, ?_⟩
      intro dangles
      apply atEnd
      rw [Item.dangles, Bool.and_eq_true, decide_eq_true_iff] at dangles
      exact isDirective.shape.getLast?_joined.mp dangles.2
    · have opensNone : opensComment (c :: rest) = false :=
        Bool.eq_false_iff.mpr fun opens => noComment (category_of_opensComment opens)
      have token := isToken_first opensNone directive
      have spelling := spelling_extent free (by simpa using ink) token.category closed
      rw [← token.lexeme] at spelling
      refine ⟨Item.Proper.token spelling, ?_⟩
      intro dangles
      rw [Item.dangles, Item.isDirective_of_isToken token.category] at dangles
      contradiction

end Scan

namespace Reads

variable {text : List Char} {items : List Item} {closed : Bool}

/-- The items of a text without open pieces are proper. -/
theorem proper (reads : Reads text items closed) (whole : closed = true) :
    ∀ item ∈ items, item.Proper := by
  induction reads with
  | ending _ => simp
  | comment _ _ ih =>
    rw [Bool.and_eq_true] at whole
    exact ih whole.2
  | item notEnd noComment later ih =>
    have free := (Reads.item notEnd noComment later).free
    rw [Bool.and_eq_true] at whole
    intro item member
    rcases List.mem_cons.mp member with rfl | later_member
    · exact (proper_item free notEnd noComment whole.1).1
    · exact ih whole.2 item later_member

/-- A directive among the items stands in the text, and behind it are the items that come next. -/
theorem exists_extent {before after : List Item} {item : Item}
    (reads : Reads text (before ++ item :: after) closed) (directive : item.isDirective = true) :
    ∃ front lines back, text = front ++ Text.joined '\n' lines ++ back ∧
      DirectiveExtent lines back ∧ item.lines = lines.map Text.trimEnd ∧
        ∃ others, Reads back after others := by
  have skipped (text : List Char) : ∃ front, text = front ++ (next text).rest := by
    have whole := text_ofText (text.dropWhile Unicode.isBlank)
    refine ⟨text.takeWhile Unicode.isBlank ++ (next text).extent, ?_⟩
    rw [List.append_assoc]
    exact (List.takeWhile_append_dropWhile ..).symm.trans (congrArg _ whole.symm)
  generalize found : before ++ item :: after = items at reads
  induction reads generalizing before with
  | ending => simp at found
  | @comment text items closed _ later ih =>
    obtain ⟨front, split⟩ := skipped text
    obtain ⟨start, lines, back, rest, whole⟩ := ih found
    exact ⟨front ++ start, lines, back, by rw [split, rest]; simp, whole⟩
  | @item text items closed notEnd noComment later ih =>
    cases before with
    | cons first before =>
      obtain ⟨front, split⟩ := skipped text
      obtain ⟨start, lines, back, rest, whole⟩ := ih (List.cons.inj found).2
      exact ⟨front ++ start, lines, back, by rw [split, rest]; simp, whole⟩
    | nil =>
      obtain ⟨rfl, rfl⟩ := List.cons.inj found
      obtain ⟨rest, begins, scan⟩ :=
        exists_of_category_directive (of_decide_eq_true directive)
      obtain ⟨lines, split, extent, trimmed⟩ := exists_extent_directive rest
      have same : next text = Scan.directive ('#' :: rest) := by
        rw [next, scan, begins]
      refine ⟨text.takeWhile Unicode.isBlank, lines, (next text).rest, ?_, ?_, ?_, _, later⟩
      · rw [same, List.append_assoc, ← split, ← begins, List.takeWhile_append_dropWhile]
      · rw [same]
        exact extent
      · rw [Item.lines, same, ← trimmed]
        exact pieces_lexeme_directive ('#' :: rest)

/-- Nothing comes after a directive whose last line ends in a backslash. -/
theorem pairwise_dangles (reads : Reads text items closed) (whole : closed = true) :
    items.Pairwise fun item _ => item.dangles = false := by
  induction reads with
  | ending _ => exact List.Pairwise.nil
  | comment _ _ ih =>
    rw [Bool.and_eq_true] at whole
    exact ih whole.2
  | @item text items closed notEnd noComment later ih =>
    have free := (Reads.item notEnd noComment later).free
    rw [Bool.and_eq_true] at whole
    refine List.Pairwise.cons ?_ (ih whole.2)
    intro other member
    cases dangles : (next text).item.dangles with
    | false => rfl
    | true =>
      have atEnd := (proper_item free notEnd noComment whole.1).2 dangles
      have nothing : Reads [] [] true := Reads.ending rfl
      have none_left := nothing.unique (atEnd ▸ later)
      rw [← none_left.1] at member
      contradiction

end Reads

end CListing
