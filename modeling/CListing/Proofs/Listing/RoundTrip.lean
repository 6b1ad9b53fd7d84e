import CListing.Proofs.Listing.Filling
import CListing.Proofs.Reader.Alone

/-!
# From tokens to a listing and back

Tokens that are appended to a listing are found in its text again, whatever happens to the lines
between them: they may be filled or ended, indented, set apart by empty lines or by pages. The one
premise is about neighbours: where the spacing of one of them leaves out the blank, the two lexemes
written side by side must be read as the two tokens.
-/

namespace CListing

open Unicode Scan

/-- A token and the spacing that it is written with. -/
structure PlacedToken where
  token : Item
  spacing : Spacing
deriving DecidableEq, Repr

/-- Where the spacing leaves out the blank between two neighbours, they stand together. -/
def PlacedToken.Fits (first second : PlacedToken) : Prop :=
  (first.spacing.joinsRight || second.spacing.joinsLeft) = true →
    first.token.StandTogether second.token

instance (first second : PlacedToken) : Decidable (first.Fits second) :=
  inferInstanceAs (Decidable (_ → _))

/-- The command moves between lines and pages and writes no text but headings. -/
def Command.isMove (command : Command) : Bool :=
  command.isSilent || decide (command = .newPage)

/-- The script appends the tokens in their order and otherwise only moves between lines and
pages. -/
inductive Places : List Command → List PlacedToken → Prop
  | nil : Places [] []
  | move {command : Command} {script : List Command} {placed : List PlacedToken}
      (isMove : command.isMove = true) (later : Places script placed) :
      Places (command :: script) placed
  | append (first : PlacedToken) {script : List Command} {placed : List PlacedToken}
      (later : Places script placed) :
      Places (.append first.token.lexeme first.spacing :: script) (first :: placed)

namespace Places

variable {script : List Command} {placed : List PlacedToken}

theorem append_move (places : Places script placed) {command : Command}
    (isMove : command.isMove = true) : Places (script ++ [command]) placed := by
  induction places with
  | nil => exact Places.move isMove Places.nil
  | move first _ ih => exact Places.move first ih
  | append first _ ih => exact Places.append first ih

end Places

namespace Row

variable {text last : List Char} {items : List Item} {joints : List Joint}

/-- The characters of a row are those of its lexemes, apart from blanks. -/
theorem not_mem {c : Char} (row : Row text items joints last) (ink : c ≠ ' ')
    (plain : ∀ item ∈ items, c ∉ item.lexeme) : c ∉ text := by
  induction row with
  | single _ => exact plain _ List.mem_cons_self
  | spaced _ _ ih =>
    have before := ih fun item member => plain item (List.mem_append_left _ member)
    have own := plain _ (List.mem_append_right _ List.mem_cons_self)
    simp [before, own, ink]
  | joined _ _ _ ih =>
    have before := ih fun item member => plain item (List.mem_append_left _ member)
    have own := plain _ (List.mem_append_right _ List.mem_cons_self)
    simp [before, own]

end Row

/-- A line without line feeds and form feeds comes back as it was written. -/
theorem Line.readsBack_of_plain {line : Line} (noFeed : '\n' ∉ line.text)
    (noForm : '\x0c' ∉ line.text) : line.ReadsBack := by
  have noHeading : Heading.matches? (line.text ++ ['\n']) = false := by
    cases heading : Heading.matches? (line.text ++ ['\n']) with
    | false => rfl
    | true =>
      have member := List.mem_of_head? (Heading.head?_of_matches? heading)
      simp [noForm] at member
  rw [ReadsBack, readBack_of_not_mem noFeed, Source.withoutHeading_of_not_matches? noHeading]

/-- Lines written for items without line feeds and form feeds come back as they were written. -/
theorem Written.all_whole {margin : Int} {lines : List Line} {items : List Item}
    {joints : List Joint} {dangling : Bool} (written : Written margin lines items joints dangling)
    (noFeed : ∀ item ∈ items, '\n' ∉ item.lexeme) (noForm : ∀ item ∈ items, '\x0c' ∉ item.lexeme) :
    ∀ line ∈ lines, line.Whole := by
  induction written with
  | nil => simp
  | passed notCode _ _ ih =>
    intro line member
    rcases List.mem_append.mp member with before | last
    · exact ih noFeed noForm line before
    · obtain rfl := List.mem_singleton.mp last
      exact fun code => absurd code notCode
  | @row _ _ _ _ _ indent text last blank row _ ih =>
    intro line member
    rcases List.mem_append.mp member with before | own
    · exact ih (fun item inside => noFeed item (List.mem_append_left _ inside))
        (fun item inside => noForm item (List.mem_append_left _ inside)) line before
    · obtain rfl := List.mem_singleton.mp own
      have free {c : Char} (ink : c ≠ ' ') (plain : c ∉ text) : c ∉ indent ++ text := by
        rw [List.mem_append, not_or]
        exact ⟨fun member => ink (blank c member), plain⟩
      exact fun _ => Line.readsBack_of_plain
        (free (by decide) (row.not_mem (by decide) fun item inside =>
          noFeed item (List.mem_append_right _ inside)))
        (free (by decide) (row.not_mem (by decide) fun item inside =>
          noForm item (List.mem_append_right _ inside)))
  | directive _ _ _ ih =>
    intro line member
    rcases List.mem_append.mp member with before | own
    · exact ih (fun item inside => noFeed item (List.mem_append_left _ inside))
        (fun item inside => noForm item (List.mem_append_left _ inside)) line before
    · obtain ⟨original, _, rfl⟩ := List.mem_map.mp own
      exact fun code => Line.Origin.noConfusion code

namespace Holds

variable {listing : Listing} {items : List Item} {joints : List Joint} {last : List Char}

theorem apply_of_isMove (holds : Holds listing items joints last false) {command : Command}
    (isMove : command.isMove = true) : Holds (listing.apply command) items joints last false := by
  rw [Command.isMove, Bool.or_eq_true, decide_eq_true_iff] at isMove
  rcases isMove with silent | rfl
  · exact holds.apply_of_isSilent silent
  · exact holds.newPage

end Holds

theorem Listing.Blanked.apply_of_isMove {listing : Listing} {spacing : Spacing}
    (blanked : listing.Blanked spacing) {command : Command} (isMove : command.isMove = true) :
    (listing.apply command).Blanked spacing := by
  rw [Command.isMove, Bool.or_eq_true, decide_eq_true_iff] at isMove
  rcases isMove with silent | rfl
  · exact blanked.apply_of_isSilent silent
  · exact blanked

theorem Scan.readsApart_of_nil (text : List Char) : ReadsApart [] text := by
  cases text <;> rfl

/-- Behind the given lexeme and its spacing, the token reads apart and begins no comment. -/
structure PlacedToken.Follows (placed : PlacedToken) (last : List Char) (spacing : Spacing) :
    Prop where
  readsApart (joined : (spacing.joinsRight || placed.spacing.joinsLeft) = true) :
    ReadsApart last placed.token.lexeme
  noComment (joined : (spacing.joinsRight || placed.spacing.joinsLeft) = true)
    (slash : last = ['/']) : ¬ MayOpenComment placed.token.lexeme

/-- A neighbour that fits follows. -/
theorem PlacedToken.Fits.follows {first second : PlacedToken} (fits : first.Fits second)
    (alone : first.token.StandsAlone) (next_alone : second.token.StandsAlone) :
    second.Follows first.token.lexeme first.spacing where
  readsApart joined := (fits joined).readsApart alone next_alone
  noComment joined slash := (fits joined).not_mayOpenComment alone next_alone slash

/-- Tokens that fit their neighbours are added to what a listing holds, and their joints hold
apart. -/
theorem Holds.places {listing : Listing} {items : List Item} {joints : List Joint}
    {last : List Char} {spacing : Spacing} {script : List Command} {placed : List PlacedToken}
    (places : Places script placed) (alone : ∀ each ∈ placed, each.token.StandsAlone)
    (fits : placed.IsChain PlacedToken.Fits) (holds : Holds listing items joints last false)
    (apart : ∀ joint ∈ joints, joint.HoldsApart) (blanked : listing.Blanked spacing)
    (follows : ∀ first ∈ placed.head?, first.Follows last spacing) :
    ∃ final finalJoints,
      Holds (listing.run script) (items ++ placed.map (·.token)) finalJoints final false ∧
        ∀ joint ∈ finalJoints, joint.HoldsApart := by
  induction places generalizing listing items joints last spacing with
  | nil => exact ⟨last, joints, by simpa using holds, apart⟩
  | move isMove _ ih =>
    exact ih alone fits (holds.apply_of_isMove isMove) apart (blanked.apply_of_isMove isMove)
      follows
  | @append first script placed _ ih =>
    have first_alone := alone first List.mem_cons_self
    have first_follows := follows first rfl
    have joined (joins : listing.joins first.token.lexeme first.spacing = true) :
        (spacing.joinsRight || first.spacing.joinsLeft) = true :=
      Bool.or_eq_true_iff.mpr (blanked.of_joins joins)
    have added := holds.append first_alone.spelling fun joins =>
      first_follows.noComment (joined joins)
    have added_apart : ∀ joint ∈ joints ++ (if listing.joins first.token.lexeme first.spacing then
        [{ left := last, right := first.token.lexeme }] else []), joint.HoldsApart := by
      intro joint member
      rcases List.mem_append.mp member with before | own
      · exact apart joint before
      · split at own
        · rename_i joins
          obtain rfl := List.mem_singleton.mp own
          exact first_follows.readsApart (joined joins)
        · contradiction
    have next_follows : ∀ second ∈ placed.head?,
        second.Follows first.token.lexeme first.spacing := by
      intro second head
      obtain ⟨others, rfl⟩ := List.head?_eq_some_iff.mp head
      exact (List.isChain_cons_cons.mp fits).1.follows first_alone (alone second (by simp))
    obtain ⟨final, finalJoints, later, final_apart⟩ := ih
      (fun each member => alone each (List.mem_cons_of_mem _ member)) fits.of_cons added
      added_apart (Listing.blanked_append _ _ _) next_follows
    rw [List.append_assoc] at later
    exact ⟨final, finalJoints, later, final_apart⟩

/-- Lines written for tokens that stand alone, with joints that hold apart, consist of these tokens
when they are read back. -/
theorem Written.reads {margin : Int} {lines : List Line} {tokens : List Item}
    {joints : List Joint} {dangling : Bool}
    (written : Written margin lines tokens joints dangling)
    (alone : ∀ token ∈ tokens, token.StandsAlone) (apart : ∀ joint ∈ joints, joint.HoldsApart) :
    Reads (Source.ofText (Listing.renderLines lines)).text tokens true := by
  have whole := written.all_whole (fun token member => (alone token member).noFeed)
    fun token member => (alone token member).noForm
  have same := List.map_congr_left fun token member =>
    Item.reread_of_token margin (alone token member).isDirective_eq_false
  have woven := written.woven Woven.nil fun _ _ contrary => absurd contrary (by simp)
  rw [same, List.map_id', List.append_nil, List.append_nil, ← Source.text_ofText_renderLines]
    at woven
  apply woven.reads
  rw [List.all_eq_true.mpr fun joint member => decide_eq_true (apart joint member),
    List.all_eq_true.mpr fun line member => decide_eq_true (whole line member)]
  rfl

/-- Tokens that stand alone, and together with those neighbours that their spacing joins them to,
are the tokens of the listing that they are appended to, whatever moves come between them. -/
theorem tokens?_render_run (layout : Layout) {name : List Char} (plainName : '\n' ∉ name)
    {script : List Command} {placed : List PlacedToken} (places : Places script placed)
    (alone : ∀ each ∈ placed, each.token.StandsAlone) (fits : placed.IsChain PlacedToken.Fits)
    (forced : Bool) :
    (Source.ofText ((Listing.blank layout name).run (script ++ [.endLine forced])).render).tokens? =
      some (placed.map (·.token)) := by
  have whole := places.append_move (show (Command.endLine forced).isMove = true from rfl)
  have begins : ∀ first ∈ placed.head?, first.Follows [] .free := fun first _ =>
    ⟨fun _ => readsApart_of_nil _, fun _ slash => absurd slash (by decide)⟩
  obtain ⟨final, joints, holds, apart⟩ := Holds.places whole alone fits
    (Holds.blank layout plainName []) (by simp) (Or.inl rfl) begins
  have ended : ((Listing.blank layout name).run (script ++ [.endLine forced])).pending = [] := by
    rw [Listing.run_append]
    exact Listing.pending_endLine _ _
  have tokens_alone : ∀ token ∈ placed.map (·.token), token.StandsAlone := by
    intro token member
    obtain ⟨each, inside, rfl⟩ := List.mem_map.mp member
    exact alone each inside
  have reads := (holds.written ended).reads tokens_alone apart
  have tokensOnly : (placed.map (·.token)).filter (!·.isDirective) = placed.map (·.token) :=
    List.filter_eq_self.mpr fun token member => by
      rw [(tokens_alone token member).isDirective_eq_false]
      rfl
  rw [Source.tokens?, Listing.render, Source.items?_eq_some_iff.mpr ⟨_, reads⟩, Option.map_some,
    List.nil_append, tokensOnly]

/-- A word and two signs, of which the second begins a page, and a string that fills the line. -/
theorem tokens?_render_run_glued :
    let placed : List PlacedToken :=
      [⟨⟨.identifier, ['x']⟩, .free⟩, ⟨⟨.increment, ['+', '+']⟩, .left⟩,
        ⟨⟨.unaryOrBinary, ['+']⟩, .right⟩, ⟨⟨.string, "\"/* */ y\"".toList⟩, .free⟩]
    let script : List Command :=
      [.indent, .append ['x'] .free, .append ['+', '+'] .left, .endLine true, .skipLine, .newPage,
        .append ['+'] .right, .endPage, .append "\"/* */ y\"".toList .free]
    '\n' ∉ ['f'] ∧ Places script placed ∧ (∀ each ∈ placed, each.token.StandsAlone) ∧
      placed.IsChain PlacedToken.Fits ∧
        (Source.ofText ((Listing.blank { lineWidth := 10, leftMargin := 2 } ['f']).run
          (script ++ [.endLine false])).render).tokens? = some (placed.map (·.token)) := by
  intro placed script
  have places : Places script placed :=
    .move rfl (.append ⟨⟨.identifier, ['x']⟩, .free⟩ (.append ⟨⟨.increment, ['+', '+']⟩, .left⟩
      (.move rfl (.move rfl (.move rfl (.append ⟨⟨.unaryOrBinary, ['+']⟩, .right⟩
        (.move rfl (.append ⟨⟨.string, "\"/* */ y\"".toList⟩, .free⟩ .nil))))))))
  have alone : ∀ each ∈ placed, each.token.StandsAlone := by decide +kernel
  have fits : placed.IsChain PlacedToken.Fits := by decide +kernel
  exact ⟨by decide, places, alone, fits,
    tokens?_render_run _ (by decide) places alone fits false⟩

end CListing
