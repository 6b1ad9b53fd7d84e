import CListing.Proofs.Formatter.Bare
import CListing.Proofs.Formatter.Guard
import CListing.Proofs.Formatter.Invariant

/-!
# The script of a walk

The script of a walk holds the tokens and directives of the source, each once and in their order,
between commands without text and reports. A token stays in the cursor until the next one is
fetched, so the invariant has three parts: what was written, the token held, and what is still
ahead. The walk never leaves out the blank beside an operator where a comment could begin.
-/

namespace CListing

open Scan

/-- What a script writes are the given items: commands without text and reports stand anywhere
between them. -/
inductive Scripted : List Command → List Item → Prop
  | nil : Scripted [] []
  | silent {command : Command} {script : List Command} {items : List Item}
      (silent : command.isSilent = true) (later : Scripted script items) :
      Scripted (command :: script) items
  | report {text : List Char} {script : List Command} {items : List Item}
      (later : Scripted script items) : Scripted (.report text :: script) items
  | token {item : Item} {spacing : Spacing} {script : List Command} {items : List Item}
      (token : item.isDirective = false) (guarded : Guarded item.lexeme spacing)
      (later : Scripted script items) :
      Scripted (.append item.lexeme spacing :: script) (item :: items)
  | directive {item : Item} {script : List Command} {items : List Item}
      (directive : item.isDirective = true) (later : Scripted script items) :
      Scripted (item.commands ++ script) (item :: items)

namespace Scripted

/-- Scripts follow one another. -/
theorem append {first second : List Command} {items others : List Item}
    (scripted : Scripted first items) (later : Scripted second others) :
    Scripted (first ++ second) (items ++ others) := by
  induction scripted with
  | nil => exact later
  | silent silent _ ih => exact Scripted.silent silent ih
  | report _ ih => exact Scripted.report ih
  | token token guarded _ ih => exact Scripted.token token guarded ih
  | directive directive _ ih =>
    rw [List.append_assoc]
    exact Scripted.directive directive ih

/-- What is written before a directive and what is written behind it. -/
theorem exists_split {script : List Command} {before after : List Item} {item : Item}
    (scripted : Scripted script (before ++ item :: after)) (directive : item.isDirective = true) :
    ∃ first second, script = first ++ item.commands ++ second ∧
      Scripted first before ∧ Scripted second after := by
  generalize found : before ++ item :: after = items at scripted
  induction scripted generalizing before with
  | nil => simp at found
  | silent silent _ ih =>
    obtain ⟨first, second, split, early, late⟩ := ih found
    exact ⟨_ :: first, second, by rw [split]; rfl, .silent silent early, late⟩
  | report _ ih =>
    obtain ⟨first, second, split, early, late⟩ := ih found
    exact ⟨_ :: first, second, by rw [split]; rfl, .report early, late⟩
  | token token guarded _ ih =>
    cases before with
    | nil =>
      obtain ⟨rfl, _⟩ := List.cons.inj found
      rw [directive] at token
      contradiction
    | cons other before =>
      obtain ⟨rfl, rest⟩ := List.cons.inj found
      obtain ⟨first, second, split, early, late⟩ := ih rest
      exact ⟨_ :: first, second, by rw [split]; rfl, .token token guarded early, late⟩
  | @directive own script items ownDirective later ih =>
    cases before with
    | nil =>
      obtain ⟨rfl, rfl⟩ := List.cons.inj found
      exact ⟨[], script, rfl, .nil, later⟩
    | cons other before =>
      obtain ⟨rfl, rest⟩ := List.cons.inj found
      obtain ⟨first, second, split, early, late⟩ := ih rest
      exact ⟨other.commands ++ first, second, by rw [split]; simp,
        .directive ownDirective early, late⟩

theorem append_silent {script : List Command} {items : List Item} {command : Command}
    (scripted : Scripted script items) (silent : command.isSilent = true) :
    Scripted (script ++ [command]) items := by
  have longer := scripted.append (Scripted.silent silent Scripted.nil)
  rwa [List.append_nil] at longer

end Scripted

/-- The token counts as an item unless it has no text. -/
def Token.held (token : Token) : List Item :=
  if token.lexeme = [] then [] else [token.item]

/-- The token is no directive, and no recognizer lets it join a neighbour where a comment could
begin. -/
structure Token.Sound (token : Token) : Prop where
  notDirective : token.item.isDirective = false
  left (opens : MayOpenComment token.lexeme) : token.category.joinsLeftSomewhere = false
  right (slash : token.lexeme = ['/']) : token.category.joinsRightSomewhere = false

theorem Token.sound_of_lexeme_eq_nil {token : Token} (notDirective : token.item.isDirective = false)
    (empty : token.lexeme = []) : token.Sound where
  notDirective := notDirective
  left opens := by
    rw [empty] at opens
    exact absurd opens (by decide)
  right slash := by
    rw [empty] at slash
    contradiction

namespace Feed

/-- A fetch along items writes the directives before the next token. -/
structure Fetched (items : List Item) (fetch : Fetch) (source : Feed) : Prop where
  split : ∃ directives rest, items = directives ++ fetch.token.held ++ rest ∧
    source = ofItems rest ∧ Scripted fetch.script directives ∧
      (fetch.token.category = .endOfFile → fetch.token.lexeme = [] ∧ rest = [])
  sound : fetch.token.Sound
  guarded : Guarded fetch.token.lexeme (fetch.spacing?.getD .free)

theorem fetched_ofItems {items : List Item} (sound : ∀ item ∈ items, item.Sound) :
    Fetched items (ofItems items).fetch.1 (ofItems items).fetch.2 := by
  induction items with
  | nil =>
    refine ⟨⟨[], [], rfl, rfl, Scripted.nil, fun _ => ⟨rfl, rfl⟩⟩, ?_, ?_⟩
    · exact Token.sound_of_lexeme_eq_nil rfl rfl
    · exact ⟨fun _ => rfl, fun _ => rfl⟩
  | cons item items ih =>
    have first := sound item List.mem_cons_self
    by_cases directive : item.isDirective = true
    · obtain ⟨⟨directives, rest, split, source, scripted, last⟩, later, guarded⟩ :=
        ih fun other member => sound other (List.mem_cons_of_mem _ member)
      rw [ofItems, if_pos directive, fetch_precede]
      refine ⟨⟨item :: directives, rest, ?_, source, ?_, last⟩, later, guarded⟩
      · exact congrArg (item :: ·) split
      · exact Scripted.directive directive scripted
    · have token : item.isDirective = false := by simpa using directive
      have held : Token.held { category := item.category, lexeme := item.lexeme, line := 0 } =
          [item] := if_neg (first.nonempty token)
      rw [ofItems, if_neg directive, fetch_cons]
      refine ⟨⟨[], items, ?_, rfl, Scripted.nil, ?_⟩, ?_, guarded_named? _⟩
      · rw [held]
        rfl
      · intro last
        exact absurd last first.notEnd
      · exact ⟨token, first.left, first.right⟩

end Feed

namespace Formatter

/-- The script so far, the token held and the items ahead make up the items of the source. -/
structure Tracks (items : List Item) (formatter : Formatter Feed) : Prop where
  split : ∃ done rest, items = done ++ formatter.cursor.current.held ++ rest ∧
    formatter.cursor.source = Feed.ofItems rest ∧ Scripted formatter.script.toList done ∧
      (formatter.cursor.current.category = .endOfFile →
        formatter.cursor.current.lexeme = [] ∧ rest = [])
  sound : formatter.cursor.current.Sound
  guarded : Guarded formatter.cursor.current.lexeme formatter.cursor.spacing
  focus : formatter.Focused

namespace Tracks

variable {items : List Item} {f : Formatter Feed}

theorem ofTokens (items : List Item) : Tracks items (.ofTokens (Feed.ofItems items) false []) where
  split := ⟨[], items, rfl, rfl, Scripted.nil, fun last => Category.noConfusion last⟩
  sound := Token.sound_of_lexeme_eq_nil rfl rfl
  guarded := ⟨fun _ => rfl, fun _ => rfl⟩
  focus := Or.inl ⟨rfl, rfl⟩

/-- The token held goes to the script. -/
theorem scripted_release (tracks : Tracks items f) :
    Scripted f.cursor.release f.cursor.current.held := by
  unfold Cursor.release Token.held
  by_cases empty : f.cursor.current.lexeme = []
  · rw [if_pos (List.isEmpty_iff.mpr empty), if_pos empty]
    exact Scripted.nil
  · rw [if_neg (mt List.isEmpty_iff.mp empty), if_neg empty]
    exact @Scripted.token f.cursor.current.item _ _ _ tracks.sound.notDirective tracks.guarded
      Scripted.nil

theorem advance (sound : ∀ item ∈ items, item.Sound) (tracks : Tracks items f) :
    Tracks items f.advance := by
  have release := tracks.scripted_release
  obtain ⟨⟨done, rest, split, source, scripted, last⟩, current, guarded, focus⟩ := tracks
  rcases focus with ⟨free, _⟩ | ⟨put, _⟩
  · have ahead : ∀ item ∈ rest, item.Sound := fun item member =>
      sound item (by rw [split]; exact List.mem_append_right _ member)
    have fetched := Feed.fetched_ofItems ahead
    rw [← source] at fetched
    obtain ⟨⟨directives, ahead, restSplit, restSource, writes, restLast⟩, next, nextGuarded⟩ :=
      fetched
    have commands : Scripted f.cursor.source.fetch.1.commands directives := by
      unfold Fetch.commands
      split
      · exact writes.append_silent rfl
      · rwa [List.append_nil]
    have longer := (scripted.append release).append commands
    rw [advance_of_free free]
    refine ⟨⟨done ++ f.cursor.current.held ++ directives, ahead, ?_, restSource, ?_, restLast⟩,
      next, nextGuarded, Or.inl ⟨rfl, rfl⟩⟩
    · simp only [split, restSplit, List.append_assoc]
    · simpa using longer
  · rw [advance_of_put put]
    exact ⟨⟨done, rest, split, source, scripted, last⟩, current, guarded, Or.inl ⟨rfl, rfl⟩⟩

/-- Marks that a recognizer may set keep the blanks where a comment could begin. -/
theorem adjust {spacing : Spacing} (tracks : Tracks items f)
    (left : f.cursor.current.category.joinsLeftSomewhere = false → spacing.joinsLeft = false)
    (right : f.cursor.current.category.joinsRightSomewhere = false → spacing.joinsRight = false) :
    Tracks items (f.adjust spacing) where
  split := tracks.split
  sound := tracks.sound
  guarded := by
    constructor
    · intro opens
      have before := tracks.guarded.left opens
      have mark := left (tracks.sound.left opens)
      simp [Formatter.adjust, Cursor.adjust, Spacing.merge, before, mark]
    · intro slash
      have before := tracks.guarded.right slash
      have mark := right (tracks.sound.right slash)
      simp [Formatter.adjust, Cursor.adjust, Spacing.merge, before, mark]
  focus := tracks.focus

/-- A name gets no marks, so the token behind it gets none either. -/
theorem mark {spacing : Spacing} (tracks : Tracks items f)
    (ofName : f.kind.isName = true → spacing = .free)
    (left : f.kind.joinsLeftSomewhere = false → spacing.joinsLeft = false)
    (right : f.kind.joinsRightSomewhere = false → spacing.joinsRight = false) :
    Tracks items (f.adjust spacing) := by
  rcases tracks.focus.kind_or_name with same | name
  · rw [same] at left right
    exact tracks.adjust left right
  · rw [ofName name]
    exact tracks.adjust (fun _ => rfl) (fun _ => rfl)

theorem perform {command : Command} (tracks : Tracks items f) (silent : command.isSilent = true) :
    Tracks items (f.perform command) where
  split := by
    obtain ⟨done, rest, split, source, scripted, last⟩ := tracks.split
    refine ⟨done, rest, split, source, ?_, last⟩
    simpa [Formatter.perform] using scripted.append_silent silent
  sound := tracks.sound
  guarded := tracks.guarded
  focus := tracks.focus

theorem reportMissing (required : Category) (tracks : Tracks items f) :
    Tracks items (f.reportMissing required) where
  split := by
    obtain ⟨done, rest, split, source, scripted, last⟩ := tracks.split
    have longer := scripted.append
      (@Scripted.report ("MISSING " ++ required.name).toList _ _ Scripted.nil)
    rw [List.append_nil] at longer
    refine ⟨done, rest, split, source, ?_, last⟩
    simpa [Formatter.reportMissing] using longer
  sound := tracks.sound
  guarded := tracks.guarded
  focus := tracks.focus

theorem lookAgain (sound : ∀ item ∈ items, item.Sound) (tracks : Tracks items f)
    (name : f.kind.isName = true) : Tracks items (f.advance.putBack.lookAt f.token) := by
  have next := tracks.advance sound
  have focus := focused_lookAgain name
  rw [putBack_advance] at focus ⊢
  exact ⟨next.split, next.sound, next.guarded, focus⟩

end Tracks

/-- The walk along items writes them in their order. -/
theorem invariant_tracks {items : List Item} (sound : ∀ item ∈ items, item.Sound) :
    Invariant (Tracks items) where
  perform tracks silent := tracks.perform silent
  reportMissing required tracks := tracks.reportMissing required
  markDeclaration {f} tracks := by
    apply tracks.mark
    · intro name
      cases kind : f.kind <;> simp [kind, Category.isName] at name <;> rfl
    · exact Category.joinsLeft_declarationSpacing
    · exact Category.joinsRight_declarationSpacing
  markExpression {f} previous tracks := by
    apply tracks.mark
    · intro name
      cases kind : f.kind <;> simp [kind, Category.isName] at name <;> rfl
    · intro apart
      exact Category.joinsLeft_expressionSpacing apart previous
    · intro apart
      exact Category.joinsRight_expressionSpacing apart previous
  joinLeft {f} tracks joins := by
    apply tracks.mark
    · intro name
      cases kind : f.kind <;> simp [kind, Category.isName, mayJoinLeft] at name joins
    · intro apart
      simp [Category.joinsLeftSomewhere, joins] at apart
    · intro _
      rfl
  advance tracks := tracks.advance sound
  lookAgain tracks name := tracks.lookAgain sound name
  countFunction tracks := ⟨tracks.split, tracks.sound, tracks.guarded, tracks.focus⟩
  countOpened tracks := ⟨tracks.split, tracks.sound, tracks.guarded, tracks.focus⟩
  countClosed tracks := ⟨tracks.split, tracks.sound, tracks.guarded, tracks.focus⟩

/-- At the end of the walk the script holds the items, all of them and nothing else. -/
theorem scripted_ofItems {items : List Item} (sound : ∀ item ∈ items, item.Sound) :
    Scripted (ofItems items).script.toList items := by
  have tracks := (invariant_tracks sound).file (Tracks.ofTokens items)
  have last : (ofItems items).kind = .endOfFile := kind_file _
  rw [ofItems] at last ⊢
  obtain ⟨done, rest, split, _, scripted, ends⟩ := tracks.split
  obtain ⟨empty, rfl⟩ := ends (tracks.focus.category_current last)
  rw [Token.held, if_pos empty, List.append_nil, List.append_nil] at split
  rwa [← split] at scripted

end Formatter

end CListing
