import CListing.Proofs.Reader.Shape
import CListing.Proofs.Reader.Woven
import CListing.Proofs.Source.ReadBack

/-!
# Directives in a listing

The lines of a directive are copied to the listing, behind the margin. What comes back is a
directive again: its first line stands where the number sign is, but the others keep the margin, one
that looks like a heading is empty, and behind a last line that ends in a backslash there is a
further, empty line.
-/

namespace CListing

open Unicode Scan

theorem isBlank_of_mem_spaces {count : Int} {c : Char} (member : c ∈ spaces count) :
    isBlank c = true := by
  rw [List.eq_of_mem_replicate member]
  decide

/-- A line of a directive as it stands in a listing with the given margin. -/
def printed (margin : Int) (line : List Char) : List Char :=
  if line = [] then [] else spaces margin ++ line

/-- What comes back of a line of a directive. -/
def reread (margin : Int) (line : List Char) : List Char :=
  if Heading.matches? (printed margin line ++ ['\n']) then [] else printed margin line

section Line

variable {line : List Char} (margin : Int)

theorem getLast?_printed : (printed margin line).getLast? = line.getLast? := by
  unfold printed
  split
  · simp [*]
  · rename_i nonempty
    exact List.getLast?_append_of_ne_nil _ nonempty

theorem not_mem_printed (plain : '\n' ∉ line) : '\n' ∉ printed margin line := by
  unfold printed
  split
  · simp
  · rw [List.mem_append, not_or]
    exact ⟨fun blank => absurd (List.eq_of_mem_replicate blank) (by decide), plain⟩

theorem trimEnd_printed (trimmed : Text.trimEnd line = line) :
    Text.trimEnd (printed margin line) = printed margin line := by
  apply Text.trimEnd_eq_self
  intro c last
  rw [getLast?_printed, ← trimmed] at last
  exact Text.isBlank_getLast_trimEnd last

/-- A line that begins with a number sign is no heading. -/
theorem reread_sign (rest : List Char) :
    reread margin ('#' :: rest) = spaces margin ++ '#' :: rest := by
  have noHeading : Heading.matches? (spaces margin ++ '#' :: rest ++ ['\n']) = false := by
    cases heading : Heading.matches? (spaces margin ++ '#' :: rest ++ ['\n']) with
    | false => rfl
    | true =>
      have begins := Heading.head?_of_matches? heading
      rw [spaces] at begins
      cases count : margin.toNat <;> simp [count, List.replicate_succ] at begins
  have print : printed margin ('#' :: rest) = spaces margin ++ '#' :: rest := if_neg (by simp)
  rw [reread, print, noHeading]
  rfl

theorem getLast?_reread :
    (reread margin line).getLast? = some '\\' ↔ line.getLast? = some '\\' := by
  unfold reread
  split
  · rename_i heading
    constructor
    · intro contrary
      contradiction
    · intro continues
      rw [← getLast?_printed margin] at continues
      rw [Heading.matches?_of_backslash continues] at heading
      contradiction
  · rw [getLast?_printed]

theorem not_mem_reread (plain : '\n' ∉ line) : '\n' ∉ reread margin line := by
  unfold reread
  split
  · simp
  · exact not_mem_printed margin plain

theorem trimEnd_reread (trimmed : Text.trimEnd line = line) :
    Text.trimEnd (reread margin line) = reread margin line := by
  unfold reread
  split
  · rfl
  · exact trimEnd_printed margin trimmed

theorem spaces_eq_nil_iff : spaces margin = [] ↔ margin ≤ 0 := by
  rw [spaces, List.replicate_eq_nil_iff, Int.toNat_eq_zero]

/-- A line comes back as it was if there is no margin before it and it does not look like a
heading. -/
theorem reread_eq_self_iff :
    reread margin line = line ↔
      (line ≠ [] → margin ≤ 0) ∧ Heading.matches? (line ++ ['\n']) = false := by
  by_cases empty : line = []
  · subst empty
    have noHeading : Heading.matches? ['\n'] = false := by decide
    simp [reread, printed, noHeading]
  · have print : printed margin line = spaces margin ++ line := if_neg empty
    rw [reread, print]
    constructor
    · intro same
      cases heading : Heading.matches? (spaces margin ++ line ++ ['\n']) with
      | true =>
        rw [heading] at same
        exact absurd same.symm empty
      | false =>
        rw [heading] at same
        have noMargin : spaces margin = [] := List.append_left_eq_self.mp same
        rw [noMargin] at heading
        exact ⟨fun _ => (spaces_eq_nil_iff margin).mp noMargin, heading⟩
    · rintro ⟨noMargin, noHeading⟩
      rw [(spaces_eq_nil_iff margin).mpr (noMargin empty), List.nil_append, noHeading]
      rfl

/-- A printed line comes back with its line feed. -/
theorem readBack_printed (plain : '\n' ∉ line) (origin : Line.Origin) :
    Line.readBack { origin := origin, text := printed margin line } =
      reread margin line ++ ['\n'] := by
  rw [Line.readBack_of_not_mem (not_mem_printed margin plain), reread]
  cases heading : Heading.matches? (printed margin line ++ ['\n']) with
  | true => rw [Source.withoutHeading_of_matches? heading]; rfl
  | false => rw [Source.withoutHeading_of_not_matches? heading]; rfl

end Line

namespace Item

/-- The lines of a directive in a listing. -/
def copies (margin : Int) (item : Item) : List Line :=
  item.lines.map fun line => { origin := .directive, text := printed margin line }

/-- The lines of a directive that comes back. -/
def rereadLines (margin : Int) (item : Item) : List (List Char) :=
  match item.lines with
  | [] => []
  | first :: others =>
    first :: others.map (CListing.reread margin) ++ if item.dangles then [[]] else []

/-- What comes back of an item. -/
def reread (margin : Int) (item : Item) : Item :=
  if item.isDirective then
    { item with lexeme := Text.joined '\n' (item.rereadLines margin) }
  else item

/-- A directive that comes back as it was: no line but the first stands behind a margin or looks
like a heading, and the last one does not end in a backslash. -/
structure ComesBack (margin : Int) (item : Item) : Prop where
  ends : item.dangles = false
  flush : ∀ line ∈ item.lines.tail, line ≠ [] → margin ≤ 0
  noHeading : ∀ line ∈ item.lines.tail, Heading.matches? (line ++ ['\n']) = false

/-- A token comes back as it is. -/
theorem reread_of_token (margin : Int) {item : Item} (token : item.isDirective = false) :
    item.reread margin = item :=
  if_neg (by simp [token])

theorem isDirective_reread (margin : Int) (item : Item) :
    (item.reread margin).isDirective = item.isDirective := by
  unfold reread
  split <;> rfl

/-- The tokens among the items come back as they are. -/
theorem filter_reread (margin : Int) (items : List Item) :
    (items.map (reread margin)).filter (!·.isDirective) = items.filter (!·.isDirective) := by
  induction items with
  | nil => rfl
  | cons item items ih =>
    rw [List.map_cons, List.filter_cons, List.filter_cons, ih, isDirective_reread]
    cases directive : item.isDirective with
    | true => rfl
    | false => rw [reread_of_token margin directive]

section Directive

variable {item : Item} (proper : item.Proper) (directive : item.isDirective = true) (margin : Int)
include proper directive

/-- The lines that come back are lines of a directive, whose last one is not continued. -/
theorem isDirective_rereadLines : IsDirective (item.rereadLines margin) false := by
  obtain ⟨shape, ⟨rest, others, lines⟩, plain, trimmed⟩ := proper.isDirective_lines directive
  rw [lines] at shape plain trimmed
  have ends : (CListing.reread margin ('#' :: rest)).getLast? = ('#' :: rest).getLast? := by
    rw [reread_sign]
    exact List.getLast?_append_of_ne_nil _ (by simp)
  have copied := (shape.map fun _ _ => getLast?_reread margin).congr_head ends
  have body : IsDirective (('#' :: rest) :: others.map (CListing.reread margin)) item.dangles := by
    refine ⟨copied, ⟨rest, _, rfl⟩, ?_, ?_⟩
    · intro line member
      rcases List.mem_cons.mp member with rfl | later
      · exact plain _ List.mem_cons_self
      · obtain ⟨original, inside, rfl⟩ := List.mem_map.mp later
        exact not_mem_reread margin (plain _ (List.mem_cons_of_mem _ inside))
    · intro line member
      rcases List.mem_cons.mp member with rfl | later
      · exact trimmed _ List.mem_cons_self
      · obtain ⟨original, inside, rfl⟩ := List.mem_map.mp later
        exact trimEnd_reread margin (trimmed _ (List.mem_cons_of_mem _ inside))
  rw [rereadLines, lines]
  cases dangles : item.dangles with
  | false =>
    rw [dangles] at body
    simpa using body
  | true =>
    rw [dangles] at body
    refine ⟨body.shape.concat_nil, ⟨rest, _, rfl⟩, ?_, ?_⟩
    · intro line member
      rcases List.mem_append.mp member with inside | added
      · exact body.plain line inside
      · rw [List.mem_singleton.mp added]
        simp
    · intro line member
      rcases List.mem_append.mp member with inside | added
      · exact body.trimmed line inside
      · rw [List.mem_singleton.mp added]
        rfl

/-- The copies of a directive are woven of what comes back of it. -/
theorem woven_copies {rest : List Char} {others : List Item} {intact : Bool}
    (later : Woven rest others intact) (closing : item.dangles = true → ∀ c ∈ rest, c = '\n') :
    Woven ((item.copies margin).flatMap Line.readBack ++ rest) (item.reread margin :: others)
      intact := by
  have isDirective := isDirective_rereadLines proper directive margin
  obtain ⟨shape, ⟨start, more, lines⟩, plain, _⟩ := proper.isDirective_lines directive
  have text : (item.copies margin).flatMap Line.readBack =
      spaces margin ++
        (Text.joined '\n' (('#' :: start) :: more.map (CListing.reread margin)) ++ ['\n']) := by
    have each : (item.copies margin).flatMap Line.readBack =
        (item.lines.map (CListing.reread margin)).flatMap (· ++ ['\n']) := by
      rw [copies, List.flatMap_map, List.flatMap_map]
      apply List.flatMap_congr
      intro line member
      exact readBack_printed margin (plain line member) _
    rw [each, lines, List.map_cons, Text.flatMap_append_separator (by simp), reread_sign,
      Text.joined_append, List.append_assoc]
  have back : item.reread margin =
      { category := .directive, lexeme := Text.joined '\n' (item.rereadLines margin) } := by
    rw [reread, if_pos directive, show item.category = .directive from of_decide_eq_true directive]
  rw [text, back, List.append_assoc, List.append_assoc]
  apply Woven.append_blanks fun c member => isBlank_of_mem_spaces member
  rw [rereadLines, lines] at isDirective ⊢
  cases dangles : item.dangles with
  | false =>
    rw [dangles] at isDirective
    have woven := Woven.directive_lines isDirective (Or.inr ⟨rest, rfl⟩)
      (Woven.blank (c := '\n') (by decide) later)
    simpa using woven
  | true =>
    rw [dangles] at isDirective
    have ends : rest = [] ∨ ∃ more, rest = '\n' :: more := by
      cases rest with
      | nil => exact Or.inl rfl
      | cons c more =>
        rw [closing dangles c List.mem_cons_self]
        exact Or.inr ⟨more, rfl⟩
    have woven := Woven.directive_lines isDirective ends later
    rw [if_pos rfl, Text.joined_concat (by simp)] at woven ⊢
    simpa using woven

theorem lines_reread : (item.reread margin).lines = item.rereadLines margin := by
  have isDirective := isDirective_rereadLines proper directive margin
  rw [lines, reread, if_pos directive]
  exact Text.pieces_joined isDirective.shape.ne_nil isDirective.plain

theorem reread_eq_self_iff_lines :
    item.reread margin = item ↔ item.rereadLines margin = item.lines := by
  constructor
  · intro same
    rw [← lines_reread proper directive, same]
  · intro same
    have whole : Text.joined '\n' item.lines = item.lexeme := Text.joined_pieces _ _
    rw [reread, if_pos directive, same, whole]

/-- A directive comes back as it was under the conditions above and no others. -/
theorem reread_eq_self_iff : item.reread margin = item ↔ item.ComesBack margin := by
  obtain ⟨_, ⟨start, others, lines⟩, _, _⟩ := proper.isDirective_lines directive
  rw [reread_eq_self_iff_lines proper directive, rereadLines, lines]
  constructor
  · intro same
    have tails := (List.cons.inj same).2
    cases dangles : item.dangles with
    | true =>
      have longer := congrArg List.length tails
      simp [dangles] at longer
    | false =>
      rw [dangles] at tails
      have kept : others.map (CListing.reread margin) = others.map id := by simpa using tails
      have each (line : List Char) (member : line ∈ others) :=
        (CListing.reread_eq_self_iff margin).mp (List.map_inj_left.mp kept line member)
      refine ⟨dangles, ?_, ?_⟩
      · rw [lines]
        intro line member
        exact (each line member).1
      · rw [lines]
        intro line member
        exact (each line member).2
  · rintro ⟨ends, flush, noHeading⟩
    rw [lines] at flush noHeading
    have kept : others.map (CListing.reread margin) = others.map id := by
      apply List.map_congr_left
      intro line member
      exact (CListing.reread_eq_self_iff margin).mpr ⟨flush line member, noHeading line member⟩
    simp [kept, ends]

end Directive

end Item

end CListing
