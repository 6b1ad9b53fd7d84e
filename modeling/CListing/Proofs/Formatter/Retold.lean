import CListing.Proofs.Formatter.Bare
import CListing.Proofs.Formatter.Guard
import CListing.Proofs.Formatter.Invariant

/-!
# Walks along changed directives

The walk looks at tokens and passes by directives. So if the directives of a source are changed and
its tokens are not, then the script has other lines for the directives and is the same otherwise.
-/

namespace CListing

/-- The change keeps tokens as they are, and directives stay directives. -/
structure Item.KeepsTokens (change : Item → Item) : Prop where
  token {item} (token : item.isDirective = false) : change item = item
  directive {item} (directive : item.isDirective = true) : (change item).isDirective = true

/-- The second script is the first one with the lines of the given directives changed. -/
inductive Retold (change : Item → Item) : List Command → List Command → List Item → Prop
  | nil : Retold change [] [] []
  | command {command : Command} {first second : List Command} {directives : List Item}
      (later : Retold change first second directives) :
      Retold change (command :: first) (command :: second) directives
  | directive {item : Item} {first second : List Command} {directives : List Item}
      (later : Retold change first second directives) :
      Retold change (item.commands ++ first) ((change item).commands ++ second)
        (item :: directives)

namespace Retold

variable {change : Item → Item}

theorem refl (script : List Command) : Retold change script script [] := by
  induction script with
  | nil => exact Retold.nil
  | cons _ _ ih => exact Retold.command ih

theorem append {first second firstLater secondLater : List Command} {directives others : List Item}
    (told : Retold change first second directives)
    (later : Retold change firstLater secondLater others) :
    Retold change (first ++ firstLater) (second ++ secondLater) (directives ++ others) := by
  induction told with
  | nil => exact later
  | command _ ih => exact Retold.command ih
  | directive _ ih =>
    rw [List.append_assoc, List.append_assoc]
    exact Retold.directive ih

theorem append_same {first second : List Command} {directives : List Item}
    (told : Retold change first second directives) (script : List Command) :
    Retold change (first ++ script) (second ++ script) directives := by
  have longer := told.append (Retold.refl script)
  rwa [List.append_nil] at longer

end Retold

namespace Feed

variable {change : Item → Item} (keeps : Item.KeepsTokens change)
include keeps

theorem size_ofItems_map (items : List Item) :
    (ofItems (items.map change)).size = (ofItems items).size := by
  induction items with
  | nil => rfl
  | cons item items ih =>
    rw [List.map_cons, ofItems, ofItems]
    by_cases directive : item.isDirective = true
    · rw [if_pos directive, if_pos (keeps.directive directive), size_precede, size_precede, ih]
    · have token : item.isDirective = false := by simpa using directive
      rw [keeps.token token, if_neg directive, if_neg directive, size_cons, size_cons, ih]

/-- A fetch brings the same token, after the changed directives. -/
theorem exists_fetch_map {items : List Item} (sound : ∀ item ∈ items, item.Sound) :
    ∃ directives rest script, items.filter Item.isDirective =
        directives ++ rest.filter Item.isDirective ∧
      (∀ item ∈ rest, item.Sound) ∧ (ofItems items).fetch.2 = ofItems rest ∧
      (ofItems (items.map change)).fetch =
        ({ (ofItems items).fetch.1 with script := script }, ofItems (rest.map change)) ∧
      Retold change (ofItems items).fetch.1.script script directives ∧
      ((ofItems items).fetch.1.token.category = .endOfFile → rest = []) := by
  induction items with
  | nil => exact ⟨[], [], [], rfl, sound, rfl, rfl, Retold.nil, fun _ => rfl⟩
  | cons item items ih =>
    have later : ∀ other ∈ items, other.Sound := fun other member =>
      sound other (List.mem_cons_of_mem _ member)
    by_cases directive : item.isDirective = true
    · obtain ⟨directives, rest, script, split, soundRest, first, second, told, last⟩ := ih later
      refine ⟨item :: directives, rest, (change item).commands ++ script, ?_, soundRest, ?_, ?_,
        ?_, ?_⟩
      · rw [List.filter_cons_of_pos directive, split, List.cons_append]
      · rw [ofItems, if_pos directive, fetch_precede]
        exact first
      · rw [List.map_cons, ofItems, if_pos (keeps.directive directive), fetch_precede, second,
          ofItems, if_pos directive, fetch_precede]
        rfl
      · rw [ofItems, if_pos directive, fetch_precede]
        exact Retold.directive told
      · rw [ofItems, if_pos directive, fetch_precede]
        exact last
    · have token : item.isDirective = false := by simpa using directive
      refine ⟨[], items, [], ?_, later, ?_, ?_, ?_, ?_⟩
      · rw [List.filter_cons_of_neg directive, List.nil_append]
      · rw [ofItems, if_neg directive, fetch_cons]
      · rw [List.map_cons, keeps.token token, ofItems, if_neg directive, fetch_cons, ofItems,
          if_neg directive, fetch_cons]
      · rw [ofItems, if_neg directive, fetch_cons]
        exact Retold.nil
      · rw [ofItems, if_neg directive, fetch_cons]
        intro last
        exact absurd last (sound item List.mem_cons_self).notEnd

end Feed

namespace Formatter

/-- The walk with other items ahead and another script. -/
def retell (formatter : Formatter Feed) (items : List Item) (script : Array Command) :
    Formatter Feed :=
  { formatter with
    cursor := { formatter.cursor with source := Feed.ofItems items }
    script := script }

/-- The second walk goes along the changed items, and its script is the script of the first one
with the lines of the directives so far changed. -/
structure Retells (change : Item → Item) (items : List Item) (f g : Formatter Feed) : Prop where
  split : ∃ directives rest script, items.filter Item.isDirective =
      directives ++ rest.filter Item.isDirective ∧
    (∀ item ∈ rest, item.Sound) ∧ f.cursor.source = Feed.ofItems rest ∧
    g = f.retell (rest.map change) script ∧
    Retold change f.script.toList script.toList directives ∧
    (f.cursor.current.category = .endOfFile → rest = [])
  focus : f.Focused

namespace Retells

variable {change : Item → Item} {items : List Item} {f g : Formatter Feed}

theorem advance (keeps : Item.KeepsTokens change) (retells : Retells change items f g) :
    Retells change items f.advance g.advance := by
  obtain ⟨⟨directives, rest, script, split, sound, here, rfl, told, last⟩, focus⟩ := retells
  rcases focus with ⟨free, _⟩ | ⟨put, _⟩
  · obtain ⟨passed, ahead, added, restSplit, soundAhead, source, fetch, toldMore, atEnd⟩ :=
      Feed.exists_fetch_map keeps sound
    have other : (f.retell (rest.map change) script).cursor.lookahead? = none := free
    rw [← here] at source toldMore atEnd fetch
    have commands : Retold change (f.cursor.release ++ f.cursor.source.fetch.1.commands)
        (f.cursor.release ++ ({ f.cursor.source.fetch.1 with script := added } : Fetch).commands)
        passed :=
      (Retold.refl f.cursor.release).append (toldMore.append_same _)
    have longer := told.append commands
    rw [advance_of_free free, advance_of_free other]
    refine ⟨⟨directives ++ passed, ahead, script ++ (f.cursor.release ++
      ({ f.cursor.source.fetch.1 with script := added } : Fetch).commands), ?_, soundAhead, source,
      ?_, ?_, atEnd⟩, Or.inl ⟨rfl, rfl⟩⟩
    · rw [split, restSplit, List.append_assoc]
    · have second : (f.retell (rest.map change) script).cursor.source.fetch =
          ({ f.cursor.source.fetch.1 with script := added }, Feed.ofItems (ahead.map change)) :=
        fetch
      rw [second]
      rfl
    · simpa using longer
  · have other : (f.retell (rest.map change) script).cursor.lookahead? =
        some f.cursor.current := put
    rw [advance_of_put put, advance_of_put other]
    exact ⟨⟨directives, rest, script, split, sound, here, rfl, told, last⟩, Or.inl ⟨rfl, rfl⟩⟩

theorem lookAgain (keeps : Item.KeepsTokens change) (retells : Retells change items f g)
    (name : f.kind.isName = true) :
    Retells change items (f.advance.putBack.lookAt f.token)
      (g.advance.putBack.lookAt g.token) := by
  have sameToken : g.token = f.token := by
    obtain ⟨⟨_, _, _, _, _, _, rfl, _⟩, _⟩ := retells
    rfl
  have focus := focused_lookAgain name
  obtain ⟨⟨directives, rest, script, split, sound, here, other, told, last⟩, _⟩ :=
    retells.advance keeps
  rw [putBack_advance] at focus
  rw [putBack_advance, putBack_advance, sameToken, other]
  exact ⟨⟨directives, rest, script, split, sound, here, rfl, told, last⟩, focus⟩

end Retells

/-- Walks that differ in the directives alone keep doing so. -/
theorem simulation_retells {change : Item → Item} (keeps : Item.KeepsTokens change)
    (items : List Item) : Simulation (Retells change items) where
  kind := by
    rintro f g ⟨⟨_, _, _, _, _, _, rfl, _⟩, _⟩
    rfl
  remaining := by
    rintro f g ⟨⟨_, rest, _, _, _, here, rfl, _⟩, _⟩
    have size : TokenSource.size (Feed.ofItems (rest.map change)) =
        TokenSource.size f.cursor.source := by
      rw [here]
      exact Feed.size_ofItems_map keeps rest
    unfold remaining retell
    rw [size]
    rfl
  perform := by
    rintro f g command ⟨⟨directives, rest, script, split, sound, here, rfl, told, last⟩, focus⟩ _
    have longer := told.append_same [command]
    exact ⟨⟨directives, rest, script.push command, split, sound, here, rfl,
      by simpa [Formatter.perform] using longer, last⟩, focus⟩
  reportMissing := by
    rintro f g required ⟨⟨directives, rest, script, split, sound, here, rfl, told, last⟩, focus⟩
    have longer := told.append_same [.report ("MISSING " ++ required.name).toList]
    exact ⟨⟨directives, rest, script.push (.report ("MISSING " ++ required.name).toList), split,
      sound, here, rfl, by simpa [Formatter.reportMissing] using longer, last⟩, focus⟩
  markDeclaration := by
    rintro f g ⟨⟨directives, rest, script, split, sound, here, rfl, told, last⟩, focus⟩
    exact ⟨⟨directives, rest, script, split, sound, here, rfl, told, last⟩, focus⟩
  markExpression := by
    rintro f g _ ⟨⟨directives, rest, script, split, sound, here, rfl, told, last⟩, focus⟩
    exact ⟨⟨directives, rest, script, split, sound, here, rfl, told, last⟩, focus⟩
  joinLeft := by
    rintro f g ⟨⟨directives, rest, script, split, sound, here, rfl, told, last⟩, focus⟩ _
    exact ⟨⟨directives, rest, script, split, sound, here, rfl, told, last⟩, focus⟩
  advance retells := retells.advance keeps
  lookAgain retells name := retells.lookAgain keeps name
  countFunction := by
    rintro f g ⟨⟨directives, rest, script, split, sound, here, rfl, told, last⟩, focus⟩
    exact ⟨⟨directives, rest, script, split, sound, here, rfl, told, last⟩, focus⟩
  countOpened := by
    rintro f g ⟨⟨directives, rest, script, split, sound, here, rfl, told, last⟩, focus⟩
    exact ⟨⟨directives, rest, script, split, sound, here, rfl, told, last⟩, focus⟩
  countClosed := by
    rintro f g ⟨⟨directives, rest, script, split, sound, here, rfl, told, last⟩, focus⟩
    exact ⟨⟨directives, rest, script, split, sound, here, rfl, told, last⟩, focus⟩

/-- A change of directives changes their lines in the script, and nothing else. -/
theorem retold_ofItems {change : Item → Item} (keeps : Item.KeepsTokens change) {items : List Item}
    (sound : ∀ item ∈ items, item.Sound) :
    Retold change (ofItems items).script.toList (ofItems (items.map change)).script.toList
      (items.filter Item.isDirective) := by
  have start : Retells change items (.ofTokens (Feed.ofItems items) false [])
      (.ofTokens (Feed.ofItems (items.map change)) false []) :=
    ⟨⟨[], items, #[], rfl, sound, rfl, rfl, Retold.nil, fun last => Category.noConfusion last⟩,
      Or.inl ⟨rfl, rfl⟩⟩
  have last : (ofItems items).kind = .endOfFile := kind_file _
  obtain ⟨⟨directives, rest, script, split, _, _, other, told, ends⟩, focus⟩ :=
    (simulation_retells keeps items).file start
  have nothing : rest = [] := ends (focus.category_current last)
  rw [nothing, List.filter_nil, List.append_nil] at split
  have sameScript : (ofItems (items.map change)).script = script := congrArg Formatter.script other
  rw [split, sameScript]
  exact told

end Formatter

end CListing
