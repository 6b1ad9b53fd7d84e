import CListing.Proofs.Scan.Piece
import CListing.Proofs.Text.Pieces

/-!
# Lines of directives

The text of a directive holds its lines: they have no line feeds, so they are the pieces of the
text between its line feeds. All lines but the last end in a backslash, and the last one does so
only at the end of the text. Lines of this kind that are put together again are scanned as one
directive.
-/

namespace CListing

open Unicode

namespace Text

/-- Trimming takes nothing but a suffix. -/
@[simp]
theorem trimEnd_cons_of_ink {c : Char} (ink : isBlank c = false) (rest : List Char) :
    trimEnd (c :: rest) = c :: trimEnd rest := by
  rw [trimEnd]
  split
  · rename_i empty
    rw [empty, ink]
    rfl
  · rfl

theorem trimEnd_isPrefix (text : List Char) : trimEnd text <+: text := by
  obtain ⟨blanks, split, _⟩ := exists_blank_suffix text
  exact ⟨blanks, split.symm⟩

end Text

namespace Scan

theorem directiveLines_ne_nil (extent : List Char) : directiveLines extent ≠ [] := by
  simpa [directiveLines] using Text.pieces_ne_nil '\n' extent

theorem not_mem_of_mem_directiveLines {extent line : List Char}
    (member : line ∈ directiveLines extent) : '\n' ∉ line := by
  obtain ⟨piece, inside, rfl⟩ := List.mem_map.mp member
  intro held
  exact Text.not_mem_of_mem_pieces inside ((Text.trimEnd_isPrefix piece).subset held)

/-- The lines of a directive are found in its text. -/
theorem pieces_lexeme_directive (text : List Char) :
    Text.pieces '\n' (directive text).lexeme = (directive text).lines :=
  Text.pieces_joined (directiveLines_ne_nil _) fun _ member => not_mem_of_mem_directiveLines member

/-- Only directives have the category of directives. -/
theorem exists_of_category_directive {text : List Char}
    (category : (ofText text).category = .directive) :
    ∃ rest, text = '#' :: rest ∧ ofText text = directive text := by
  have found := head text
  generalize ofText text = scan at category found
  cases found with
  | ending => contradiction
  | comment _ comment =>
    rw [category] at comment
    contradiction
  | @directive rest => exact ⟨rest, rfl, rfl⟩
  | token _ _ token =>
    have isToken := token.category
    rw [category] at isToken
    contradiction

end Scan

/-! ## Line by line -/

/-- The last character of a line that is not a blank is a backslash; if there is none, the state
before the line counts. -/
def carries (continued : Bool) (line : List Char) : Bool :=
  line.foldl (fun state c => if isBlank c then state else c = '\\') continued

theorem carries_of_blank {blanks : List Char} (blank : ∀ c ∈ blanks, isBlank c = true)
    (continued : Bool) : carries continued blanks = continued := by
  induction blanks with
  | nil => rfl
  | cons c rest ih =>
    rw [carries, List.foldl_cons, if_pos (blank c List.mem_cons_self)]
    exact ih fun d member => blank d (List.mem_cons_of_mem _ member)

/-- A line is continued if it ends in a backslash, blanks at its end not counted. -/
theorem carries_eq (line : List Char) :
    carries false line = decide ((Text.trimEnd line).getLast? = some '\\') := by
  obtain ⟨blanks, split, blank⟩ := Text.exists_blank_suffix line
  have trimmed : carries false line = carries false (Text.trimEnd line) := by
    rw [congrArg (carries false) split, carries, List.foldl_append]
    exact carries_of_blank blank _
  rw [trimmed]
  cases last : (Text.trimEnd line).getLast? with
  | none =>
    rw [List.getLast?_eq_none_iff.mp last]
    rfl
  | some c =>
    have ink := Text.isBlank_getLast_trimEnd last
    obtain ⟨front, kept⟩ := List.getLast?_eq_some_iff.mp last
    rw [kept, carries, List.foldl_append, List.foldl_cons, List.foldl_nil, ink]
    simp

theorem directiveFrom_of_not_mem {line : List Char} (plain : '\n' ∉ line) (continued : Bool) :
    directiveFrom continued line = { extent := line, rest := [] } := by
  induction line generalizing continued with
  | nil => rfl
  | cons c rest ih =>
    rw [List.mem_cons, not_or] at plain
    rw [directiveFrom, if_neg (Ne.symm plain.1), ih plain.2]
    rfl

theorem directiveFrom_append {line : List Char} (plain : '\n' ∉ line) (continued : Bool)
    (rest : List Char) :
    directiveFrom continued (line ++ '\n' :: rest) =
      if carries continued line then
        { extent := line ++ '\n' :: (directiveFrom false rest).extent
          rest := (directiveFrom false rest).rest
          closed := (directiveFrom false rest).closed }
      else { extent := line, rest := '\n' :: rest } := by
  induction line generalizing continued with
  | nil => cases continued <;> rfl
  | cons c more ih =>
    rw [List.mem_cons, not_or] at plain
    have step : carries continued (c :: more) =
        carries (if isBlank c then continued else c = '\\') more := rfl
    rw [List.cons_append, directiveFrom, if_neg (Ne.symm plain.1), ih plain.2, step]
    generalize carries _ more = state
    cases state <;> rfl

/-- A directive never lacks its end. -/
theorem closed_directiveFrom (continued : Bool) (text : List Char) :
    (directiveFrom continued text).closed = true := by
  induction text generalizing continued with
  | nil => rfl
  | cons c rest ih =>
    rw [directiveFrom]
    split
    · split
      · exact ih false
      · rfl
    · exact ih _

/-- A directive ends before a line feed or at the end of the text. -/
theorem rest_directiveFrom (continued : Bool) (text : List Char) :
    (directiveFrom continued text).rest = [] ∨
      ∃ more, (directiveFrom continued text).rest = '\n' :: more := by
  induction text generalizing continued with
  | nil => exact Or.inl rfl
  | cons c rest ih =>
    rw [directiveFrom]
    split
    · rename_i feed
      split
      · exact ih false
      · exact Or.inr ⟨rest, by rw [feed]⟩
    · exact ih _

/-- The lines of a directive: each but the last ends in a backslash. The flag says whether the last
one does so too. -/
inductive DirectiveLines : List (List Char) → Bool → Prop
  | last (line : List Char) : DirectiveLines [line] (line.getLast? = some '\\')
  | more {line next : List Char} {others : List (List Char)} {dangling : Bool}
      (continues : line.getLast? = some '\\') (later : DirectiveLines (next :: others) dangling) :
      DirectiveLines (line :: next :: others) dangling

namespace DirectiveLines

variable {lines : List (List Char)} {dangling : Bool}

theorem ne_nil (shape : DirectiveLines lines dangling) : lines ≠ [] := by
  cases shape <;> simp

/-- The text of the lines ends in a backslash exactly if the last line does. -/
theorem getLast?_joined (shape : DirectiveLines lines dangling) :
    (Text.joined '\n' lines).getLast? = some '\\' ↔ dangling = true := by
  induction shape with
  | last line => simp [Text.joined_singleton]
  | @more line next others dangling continues later ih =>
    rw [Text.joined_cons_cons, List.getLast?_append, List.getLast?_cons, ← ih]
    cases last : (Text.joined '\n' (next :: others)).getLast? with
    | none => simp
    | some c => simp

/-- An empty line after the last one closes the directive. -/
theorem concat_nil (shape : DirectiveLines lines true) : DirectiveLines (lines ++ [[]]) false := by
  generalize continued : true = dangling at shape
  induction shape with
  | last line =>
    exact more (by simpa using continued.symm) (last [])
  | more continues later ih => exact more continues (ih continued)

/-- Lines may change as long as the backslashes at their ends do not. -/
theorem map (shape : DirectiveLines lines dangling) {change : List Char → List Char}
    (keeps : ∀ line ∈ lines, (change line).getLast? = some '\\' ↔ line.getLast? = some '\\') :
    DirectiveLines (lines.map change) dangling := by
  induction shape with
  | last line =>
    have same := keeps line List.mem_cons_self
    have changed := last (change line)
    rwa [decide_eq_decide.mpr same] at changed
  | more continues later ih =>
    have still := (keeps _ List.mem_cons_self).mpr continues
    exact more still (ih fun line member => keeps line (List.mem_cons_of_mem _ member))

/-- Of the first line only the end counts. -/
theorem congr_head {first other : List Char} {others : List (List Char)}
    (shape : DirectiveLines (first :: others) dangling)
    (same : first.getLast? = other.getLast?) : DirectiveLines (other :: others) dangling := by
  cases shape with
  | last =>
    rw [same]
    exact last other
  | more continues later =>
    rw [same] at continues
    exact more continues later

end DirectiveLines

/-- The last line of a directive ends in a backslash only at the end of the text. -/
theorem directiveLines_directiveFrom (text : List Char) :
    ∃ dangling, DirectiveLines (directiveLines (directiveFrom false text).extent) dangling ∧
      (dangling = true → (directiveFrom false text).rest = []) := by
  induction length : text.length using Nat.strongRecOn generalizing text with
  | _ size ih =>
    subst length
    by_cases feed : '\n' ∈ text
    · obtain ⟨line, rest, split, plain⟩ := List.eq_append_cons_of_mem feed
      have carried := carries_eq line
      rw [split, directiveFrom_append plain]
      by_cases continued : carries false line = true
      · have shorter : rest.length < text.length := by
          rw [split, List.length_append, List.length_cons]
          omega
        obtain ⟨dangling, later, atEnd⟩ := ih rest.length shorter rest rfl
        refine ⟨dangling, ?_, by rwa [if_pos continued]⟩
        rw [if_pos continued]
        rw [continued] at carried
        simp only [directiveLines, Text.pieces_append_cons plain, List.map_cons] at later ⊢
        cases others : (Text.pieces '\n' (directiveFrom false rest).extent).map Text.trimEnd with
        | nil => exact absurd others (Scan.directiveLines_ne_nil _)
        | cons next more =>
          rw [others] at later
          exact DirectiveLines.more (of_decide_eq_true carried.symm) later
      · rw [if_neg continued]
        rw [Bool.not_eq_true] at continued
        rw [continued] at carried
        have single := DirectiveLines.last (Text.trimEnd line)
        rw [← carried] at single
        refine ⟨false, ?_, fun contrary => Bool.noConfusion contrary⟩
        rwa [directiveLines, Text.pieces_of_not_mem plain, List.map_singleton]
    · rw [directiveFrom_of_not_mem feed, directiveLines, Text.pieces_of_not_mem feed,
        List.map_singleton]
      exact ⟨_, DirectiveLines.last _, fun _ => rfl⟩

/-- Lines of a directive as they are scanned: trimmed, the first one after a number sign. The flag
says whether the last line ends in a backslash. -/
structure IsDirective (lines : List (List Char)) (dangling : Bool) : Prop where
  shape : DirectiveLines lines dangling
  first : ∃ rest others, lines = ('#' :: rest) :: others
  plain : ∀ line ∈ lines, '\n' ∉ line
  trimmed : ∀ line ∈ lines, Text.trimEnd line = line

/-- Lines of a directive that are put together are cut off as they are, before a line feed and at
the end of the text. -/
theorem directiveFrom_joined {lines : List (List Char)} {dangling : Bool} {rest : List Char}
    (shape : DirectiveLines lines dangling) (closed : dangling = false)
    (ends : rest = [] ∨ ∃ more, rest = '\n' :: more) (plain : ∀ line ∈ lines, '\n' ∉ line)
    (trimmed : ∀ line ∈ lines, Text.trimEnd line = line) :
    directiveFrom false (Text.joined '\n' lines ++ rest) =
      { extent := Text.joined '\n' lines, rest := rest } := by
  induction shape with
  | last line =>
    have carried := carries_eq line
    rw [trimmed line (by simp), closed] at carried
    have plainLine := plain line (by simp)
    rw [Text.joined_singleton]
    rcases ends with rfl | ⟨more, rfl⟩
    · rw [List.append_nil, directiveFrom_of_not_mem plainLine]
    · rw [directiveFrom_append plainLine, if_neg (by simp [carried])]
  | @more line next others _ continues later ih =>
    have inner := ih closed (fun line member => plain line (List.mem_cons_of_mem _ member))
      fun line member => trimmed line (List.mem_cons_of_mem _ member)
    have carried := carries_eq line
    rw [trimmed line (by simp), continues, decide_eq_true rfl] at carried
    rw [Text.joined_cons_cons, List.append_assoc, List.cons_append,
      directiveFrom_append (plain line (by simp)), if_pos carried, inner]

namespace Scan

/-- What is scanned as a directive has lines of a directive, and the last one ends in a backslash
only at the end of the text. -/
theorem isDirective_directive (rest : List Char) :
    ∃ dangling, IsDirective (directive ('#' :: rest)).lines dangling ∧
      (dangling = true → (directive ('#' :: rest)).rest = []) := by
  obtain ⟨dangling, shape, atEnd⟩ := directiveLines_directiveFrom ('#' :: rest)
  refine ⟨dangling, ⟨shape, ?_, fun line member => not_mem_of_mem_directiveLines member, ?_⟩, atEnd⟩
  · have begins : (directiveFrom false ('#' :: rest)).extent =
        '#' :: (directiveFrom false rest).extent := rfl
    have ink : isBlank '#' = false := by decide
    have lines : (directive ('#' :: rest)).lines =
        directiveLines ('#' :: (directiveFrom false rest).extent) := congrArg directiveLines begins
    cases pieces : Text.pieces '\n' (directiveFrom false rest).extent with
    | nil => exact absurd pieces (Text.pieces_ne_nil _ _)
    | cons piece more =>
      refine ⟨Text.trimEnd piece, more.map Text.trimEnd, ?_⟩
      rw [lines, directiveLines, Text.pieces_cons_of_ne (by decide) pieces, List.map_cons,
        Text.trimEnd_cons_of_ink ink]
  · intro line member
    obtain ⟨piece, _, rfl⟩ := List.mem_map.mp member
    exact Text.trimEnd_trimEnd piece

/-- The lines as they stand in a text before `back`, with the blanks at their ends. -/
structure DirectiveExtent (lines : List (List Char)) (back : List Char) : Prop where
  first : ∃ rest others, lines = ('#' :: rest) :: others
  plain : ∀ line ∈ lines, '\n' ∉ line
  shape : ∃ dangling, DirectiveLines (lines.map Text.trimEnd) dangling ∧
    (dangling = true → back = [])
  ends : back = [] ∨ ∃ more, back = '\n' :: more

/-- What is scanned as a directive are lines in the text, and it holds them trimmed. -/
theorem exists_extent_directive (rest : List Char) :
    ∃ lines, '#' :: rest = Text.joined '\n' lines ++ (directive ('#' :: rest)).rest ∧
      DirectiveExtent lines (directive ('#' :: rest)).rest ∧
      (directive ('#' :: rest)).lines = lines.map Text.trimEnd := by
  have begins : (directive ('#' :: rest)).extent =
      '#' :: (directiveFrom false rest).extent := rfl
  have whole := text_directive ('#' :: rest)
  refine ⟨Text.pieces '\n' (directive ('#' :: rest)).extent, ?_, ⟨?_, ?_, ?_, ?_⟩, rfl⟩
  · rw [Text.joined_pieces]
    exact whole.symm
  · rw [begins]
    cases pieces : Text.pieces '\n' (directiveFrom false rest).extent with
    | nil => exact absurd pieces (Text.pieces_ne_nil _ _)
    | cons piece more => exact ⟨piece, more, Text.pieces_cons_of_ne (by decide) pieces⟩
  · exact fun line member => Text.not_mem_of_mem_pieces member
  · exact directiveLines_directiveFrom ('#' :: rest)
  · exact rest_directiveFrom false ('#' :: rest)

/-- Lines of a directive that are put together are scanned as this directive. -/
theorem directive_joined {lines : List (List Char)} (directiveLines : IsDirective lines false)
    {rest : List Char} (ends : rest = [] ∨ ∃ more, rest = '\n' :: more) :
    (directive (Text.joined '\n' lines ++ rest)).lexeme = Text.joined '\n' lines ∧
      (directive (Text.joined '\n' lines ++ rest)).rest = rest := by
  obtain ⟨shape, _, plain, trimmed⟩ := directiveLines
  have cut := directiveFrom_joined shape rfl ends plain trimmed
  have kept : CListing.directiveLines (Text.joined '\n' lines) = lines := by
    rw [CListing.directiveLines, Text.pieces_joined shape.ne_nil plain]
    exact (List.map_congr_left trimmed).trans (List.map_id lines)
  constructor
  · rw [directive, directiveCut, cut]
    exact congrArg (Text.joined '\n') kept
  · rw [directive, directiveCut, cut]
    rfl

end Scan

end CListing
