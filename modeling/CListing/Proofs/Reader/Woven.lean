import CListing.Proofs.Reader.Items
import CListing.Proofs.Scan.Directive

/-!
# Texts woven of items

The other way round from reading: a text that is put together from tokens and directives, with
blanks between them or not. It is read as these items if every token reads apart from what follows.
If one does not, or was torn, then the tokens found in the text are different ones.
-/

namespace CListing

open Unicode Scan

/-- The text is put together from the items. The flag says whether each token is there and reads
apart from what follows it; nothing is said about the text behind a token that was lost. -/
inductive Woven : List Char → List Item → Bool → Prop
  | nil : Woven [] [] true
  | blank {c : Char} {text : List Char} {items : List Item} {intact : Bool}
      (blank : isBlank c = true) (later : Woven text items intact) : Woven (c :: text) items intact
  | token {item : Item} {rest : List Char} {items : List Item} {intact : Bool}
      (spelling : Spelling item.category item.lexeme)
      (noComment : opensComment (item.lexeme ++ rest) = false) (later : Woven rest items intact) :
      Woven (item.lexeme ++ rest) (item :: items) (decide (ReadsApart item.lexeme rest) && intact)
  | directive {rest : List Char} {items : List Item} {intact : Bool}
      (later : Woven (Scan.directive ('#' :: rest)).rest items intact) :
      Woven ('#' :: rest) ((Scan.directive ('#' :: rest)).item :: items) intact
  | torn {item : Item} {text : List Char} {items : List Item}
      (spelling : Spelling item.category item.lexeme) (begins : text.head? = item.lexeme.head?)
      (noComment : opensComment text = false) (lost : ¬ item.lexeme <+: text) :
      Woven text (item :: items) false

theorem Spelling.exists_cons {category : Category} {lexeme : List Char}
    (spelling : Spelling category lexeme) :
    ∃ c more, lexeme = c :: more ∧ isBlank c = false ∧ c ≠ '#' := by
  obtain ⟨nonempty, ink, _⟩ := spelling.ink_ends
  have cut := spelling.ofText_append (readsApart_nil lexeme)
  have token := spelling.isToken
  rw [List.append_nil] at cut
  cases lexeme with
  | nil => contradiction
  | cons c more =>
    refine ⟨c, more, rfl, by simpa using ink, ?_⟩
    rintro rfl
    rw [ofText_directive] at cut
    rw [← show (Scan.directive ('#' :: more)).category = category from congrArg Scan.category cut]
      at token
    contradiction

namespace Scan

theorem next_cons_of_isBlank {c : Char} (blank : isBlank c = true) (text : List Char) :
    next (c :: text) = next text := by
  rw [next, List.dropWhile_cons_of_pos blank]
  rfl

theorem next_cons_of_ink {c : Char} (ink : isBlank c = false) (text : List Char) :
    next (c :: text) = ofText (c :: text) := by
  rw [next, List.dropWhile_cons_of_neg (by simp [ink])]

end Scan

namespace Reads

variable {text : List Char} {items : List Item} {closed : Bool}

/-- Blanks before the first item do not count. -/
theorem cons_blank_iff {c : Char} (blank : isBlank c = true) :
    Reads (c :: text) items closed ↔ Reads text items closed := by
  have same := next_cons_of_isBlank blank text
  constructor
  · intro reads
    cases reads with
    | ending category =>
      rw [same] at category
      exact ending category
    | comment category later =>
      rw [same] at category later ⊢
      exact comment category later
    | item notEnd noComment later =>
      rw [same] at notEnd noComment later ⊢
      exact item notEnd noComment later
  · intro reads
    cases reads with
    | ending category =>
      rw [← same] at category
      exact ending category
    | comment category later =>
      rw [← same] at category later ⊢
      exact comment category later
    | item notEnd noComment later =>
      rw [← same] at notEnd noComment later ⊢
      exact item notEnd noComment later

/-- A text that begins with neither a blank nor a comment begins with an item. -/
theorem exists_first {c : Char} {rest : List Char} (reads : Reads (c :: rest) items closed)
    (ink : isBlank c = false) (noComment : opensComment (c :: rest) = false) :
    ∃ others othersClosed, items = (ofText (c :: rest)).item :: others ∧
      Reads (ofText (c :: rest)).rest others othersClosed := by
  have begins := next_cons_of_ink ink rest
  rw [← begins]
  cases reads with
  | ending last =>
    rw [category_next_eq_endOfFile_iff, List.dropWhile_cons_of_neg (by simp [ink])] at last
    contradiction
  | comment category _ =>
    rw [begins] at category
    rw [opensComment_of_category category] at noComment
    contradiction
  | item _ _ later => exact ⟨_, _, rfl, later⟩

/-- If a text is to have the tokens of a sequence that begins with the given one, then that token
is what it begins with. -/
theorem extent_eq_of_filter {item : Item} {c : Char} {rest : List Char} {others : List Item}
    (reads : Reads (c :: rest) items closed) (ink : isBlank c = false)
    (noComment : opensComment (c :: rest) = false) (noDirective : c ≠ '#')
    (token : item.isDirective = false)
    (same : items.filter (!·.isDirective) = (item :: others).filter (!·.isDirective)) :
    (ofText (c :: rest)).extent = item.lexeme := by
  obtain ⟨_, _, rfl, _⟩ := reads.exists_first ink noComment
  have isToken := isToken_first noComment noDirective
  have counts : (ofText (c :: rest)).item.isDirective = false :=
    Item.isDirective_of_isToken isToken.category
  rw [List.filter_cons_of_pos (by simp [counts]), List.filter_cons_of_pos (by simp [token]),
    List.cons.injEq] at same
  rw [← same.1, ← isToken.lexeme]
  rfl

end Reads

namespace Woven

variable {text : List Char} {items : List Item} {intact : Bool}

/-- A text woven of items that read apart consists of these items. -/
theorem reads (woven : Woven text items intact) (whole : intact = true) :
    Reads text items true := by
  induction woven with
  | nil => exact Reads.ending rfl
  | blank blank _ ih => exact (Reads.cons_blank_iff blank).mpr (ih whole)
  | @token item rest items intact spelling noComment _ ih =>
    rw [Bool.and_eq_true, decide_eq_true_iff] at whole
    obtain ⟨apart, whole⟩ := whole
    obtain ⟨c, more, begins, ink, _⟩ := spelling.exists_cons
    have cut := spelling.ofText_append apart
    have piece : next (item.lexeme ++ rest) = ofToken item.category item.lexeme rest := by
      rw [← cut, begins, List.cons_append, next_cons_of_ink ink]
    have category : (next (item.lexeme ++ rest)).category = item.category := by
      rw [piece]
      rfl
    have token := spelling.isToken
    have reads := @Reads.item (item.lexeme ++ rest) items true
      (by rw [category]; rintro last; rw [last] at token; contradiction)
      (by rw [category]; rintro comment; rw [comment] at token; contradiction)
      (by rw [piece]; exact ih whole)
    rw [piece] at reads
    exact reads
  | @directive rest items intact _ ih =>
    have piece : next ('#' :: rest) = Scan.directive ('#' :: rest) := by
      rw [next_cons_of_ink (by decide), ofText_directive]
    have reads := @Reads.item ('#' :: rest) items true
      (by rw [piece]; intro last; contradiction) (by rw [piece]; intro comment; contradiction)
      (by rw [piece]; exact ih whole)
    rw [piece] at reads
    have closed : (Scan.directive ('#' :: rest)).closed = true := closed_directiveFrom false _
    rwa [closed] at reads
  | torn => contradiction

/-- If a text woven of items has their tokens, then each of them is there and reads apart. -/
theorem intact_of_reads (woven : Woven text items intact) {others : List Item} {closed : Bool}
    (reads : Reads text others closed)
    (same : others.filter (!·.isDirective) = items.filter (!·.isDirective)) : intact = true := by
  induction woven generalizing others closed with
  | nil => rfl
  | blank blank _ ih => exact ih ((Reads.cons_blank_iff blank).mp reads) same
  | @token item rest items intact spelling noComment _ ih =>
    have token := Item.isDirective_of_isToken spelling.isToken
    obtain ⟨c, more, begins, ink, noDirective⟩ := spelling.exists_cons
    have whole : item.lexeme ++ rest = c :: (more ++ rest) := by rw [begins]; rfl
    rw [whole] at reads noComment
    have extent := reads.extent_eq_of_filter ink noComment noDirective token same
    rw [← whole] at extent
    by_cases apart : ReadsApart item.lexeme rest
    · have cut := spelling.ofText_append apart
      obtain ⟨later, laterClosed, rfl, laterReads⟩ := reads.exists_first ink noComment
      have first : (ofToken item.category item.lexeme rest).item = item := rfl
      rw [← whole, cut] at laterReads same
      rw [decide_eq_true apart, Bool.true_and]
      apply ih laterReads
      rw [first, List.filter_cons_of_pos (by simp [token]),
        List.filter_cons_of_pos (by simp [token]), List.cons.injEq] at same
      exact same.2
    · exact absurd extent (spelling.extent_ofText_append_ne apart)
  | @directive rest items intact _ ih =>
    obtain ⟨later, laterClosed, rfl, laterReads⟩ :=
      reads.exists_first (by decide) (by rfl)
    rw [ofText_directive] at laterReads same
    apply ih laterReads
    rwa [List.filter_cons_of_neg (by simp [Item.isDirective, Scan.item, Scan.directive, ofCut]),
      List.filter_cons_of_neg (by simp [Item.isDirective, Scan.item, Scan.directive, ofCut])]
      at same
  | @torn item text items spelling begins noComment lost =>
    obtain ⟨c, more, lexeme, ink, noDirective⟩ := spelling.exists_cons
    rw [lexeme, List.head?_cons] at begins
    obtain ⟨rest, rfl⟩ := List.head?_eq_some_iff.mp begins
    have extent := reads.extent_eq_of_filter ink noComment noDirective
      (Item.isDirective_of_isToken spelling.isToken) same
    have whole := text_ofText (c :: rest)
    rw [Scan.text, extent] at whole
    exact absurd ⟨_, whole⟩ lost

/-- Blanks may stand before a woven text. -/
theorem append_blanks {blanks : List Char} (blank : ∀ c ∈ blanks, isBlank c = true)
    (woven : Woven text items intact) : Woven (blanks ++ text) items intact := by
  induction blanks with
  | nil => exact woven
  | cons c blanks ih =>
    exact Woven.blank (blank c List.mem_cons_self)
      (ih fun d member => blank d (List.mem_cons_of_mem _ member))

/-- Lines of a directive before a line feed or the end are woven as this directive. -/
theorem directive_lines {lines : List (List Char)} (isDirective : IsDirective lines false)
    {rest : List Char} (ends : rest = [] ∨ ∃ more, rest = '\n' :: more)
    (later : Woven rest items intact) :
    Woven (Text.joined '\n' lines ++ rest)
      ({ category := .directive, lexeme := Text.joined '\n' lines } :: items) intact := by
  obtain ⟨lexeme, left⟩ := directive_joined isDirective ends
  obtain ⟨first, others, rfl⟩ := isDirective.first
  rw [Text.joined_cons, List.cons_append] at lexeme left ⊢
  rw [← left] at later
  have woven := Woven.directive later
  rwa [Scan.item, lexeme] at woven

end Woven

end CListing
