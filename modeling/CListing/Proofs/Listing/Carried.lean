import CListing.Proofs.Formatter.Notes
import CListing.Proofs.Listing.Filling

/-!
# Scripts carried out

A script without reports adds its items to what a listing holds, together with the joints between
them. The lines that are there stay, so a listing in which no page begins inside a directive was
never one in which a page did.
-/

namespace CListing

namespace Listing

/-! ## Pages inside directives -/

theorem partsDirective_append {lines : List Line} (parts : partsDirective lines = true)
    (more : List Line) : partsDirective (lines ++ more) = true := by
  match lines with
  | [] => contradiction
  | [_] => contradiction
  | [_, _] => contradiction
  | _ :: _ :: _ :: _ => exact parts

variable {listing : Listing}

/-- If no page begins inside a directive, then none does in the lines before. -/
theorem Unparted.of_isPrefix {later : Listing} (unparted : later.Unparted)
    (isPrefix : listing.lines.toList <+: later.lines.toList) : listing.Unparted := by
  intro lines member
  obtain ⟨before, split⟩ := (List.mem_tails _ _).mp member
  obtain ⟨more, whole⟩ := isPrefix
  cases parts : partsDirective lines with
  | false => rfl
  | true =>
    have inside : lines ++ more ∈ later.lines.toList.tails := by
      rw [List.mem_tails, ← whole, ← split, List.append_assoc]
      exact List.suffix_append _ _
    rw [← partsDirective_append parts more]
    exact unparted _ inside

/-! ## Copies of directives -/

/-- A trimmed line of a directive stands behind the margin. -/
theorem lineText_of_trimmed {text : List Char} (trimmed : Text.trimEnd text = text) :
    listing.lineText text false = printed listing.layout.leftMargin text := by
  unfold lineText printed
  rw [trimmed]
  cases text with
  | nil => rfl
  | cons c more => simp

theorem lines_apply_directive (empty : listing.pending = []) {text : List Char}
    (trimmed : Text.trimEnd text = text) :
    (listing.apply (.directive text)).lines.toList = listing.makeRoom.lines.toList ++
      [{ origin := .directive, text := printed listing.layout.leftMargin text }] := by
  rw [apply, endLine_of_nil empty, writeLine, Array.toList_push, lineText_of_trimmed trimmed,
    layout_makeRoom]

theorem layout_apply_directive (empty : listing.pending = []) (text : List Char) :
    (listing.apply (.directive text)).layout = listing.layout := by
  rw [apply, endLine_of_nil empty, layout_writeLine]

theorem name_apply_directive (empty : listing.pending = []) (text : List Char) :
    (listing.apply (.directive text)).name = listing.name := by
  rw [apply, endLine_of_nil empty, name_writeLine]

theorem pending_apply_directive (text : List Char) :
    (listing.apply (.directive text)).pending = [] := by
  rw [apply, pending_writeLine, pending_endLine]

theorem lines_makeRoom (listing : Listing) :
    listing.makeRoom.lines.toList = listing.lines.toList ∨ ∃ heading : Line,
      heading.isHeading = true ∧
        listing.makeRoom.lines.toList = listing.lines.toList ++ [heading] := by
  unfold makeRoom
  split
  · right
    exact ⟨_, rfl, Array.toList_push⟩
  · exact Or.inl rfl

/-- The copies of a directive stand below each other if no page begins between them. -/
theorem lines_run_directives {lines : List (List Char)} {dangling : Bool}
    (shape : DirectiveLines lines dangling) (trimmed : ∀ line ∈ lines, Text.trimEnd line = line)
    (empty : listing.pending = []) (unparted : (listing.run (lines.map .directive)).Unparted) :
    (listing.run (lines.map .directive)).lines.toList = listing.makeRoom.lines.toList ++
      lines.map fun line =>
        { origin := .directive, text := printed listing.layout.leftMargin line } := by
  induction shape generalizing listing with
  | last line => exact lines_apply_directive empty (trimmed line List.mem_cons_self)
  | @more line next others dangling continues later ih =>
    have first := lines_apply_directive empty (trimmed line List.mem_cons_self)
    have rest := @ih (listing.apply (.directive line))
      (fun line member => trimmed line (List.mem_cons_of_mem _ member))
      (pending_apply_directive line) unparted
    rw [layout_apply_directive empty] at rest
    rcases lines_makeRoom (listing.apply (.directive line)) with same | ⟨heading, isHeading, headed⟩
    · rw [same, first] at rest
      rw [List.map_cons, run_cons, rest, List.append_assoc]
      rfl
    · -- A page that began here would part the directive.
      rw [headed, first] at rest
      have whole : (listing.run ((line :: next :: others).map .directive)).lines.toList =
          listing.makeRoom.lines.toList ++
            ({ origin := .directive, text := printed listing.layout.leftMargin line } :: heading ::
              (next :: others).map fun line =>
                { origin := .directive, text := printed listing.layout.leftMargin line }) := by
        rw [List.map_cons, run_cons, rest, List.append_assoc, List.append_assoc]
        rfl
      have inside := unparted _ ((List.mem_tails _ _).mpr ⟨_, whole.symm⟩)
      simp [partsDirective, getLast?_printed, continues, isHeading] at inside

theorem frame_run_directives (empty : listing.pending = []) (lines : List (List Char)) :
    (listing.run (lines.map .directive)).layout = listing.layout ∧
      (listing.run (lines.map .directive)).name = listing.name ∧
        (listing.run (lines.map .directive)).pending = [] := by
  induction lines generalizing listing with
  | nil => exact ⟨rfl, rfl, empty⟩
  | cons line lines ih =>
    obtain ⟨layout, name, pending⟩ := @ih (listing.apply (.directive line))
      (pending_apply_directive line)
    rw [List.map_cons, run_cons, layout, name, pending, layout_apply_directive empty,
      name_apply_directive empty]
    exact ⟨rfl, rfl, rfl⟩

theorem pending_run_commands (listing : Listing) (item : Item) :
    (listing.run item.commands).pending = [] :=
  (frame_run_directives (pending_endLine listing false) item.lines).2.2

/-- Directives form no joints. -/
theorem joints_run_directives (lines : List (List Char)) (before : List Char)
    (script : List Command) :
    listing.joints before (lines.map .directive ++ script) =
      (listing.run (lines.map .directive)).joints before script := by
  induction lines generalizing listing with
  | nil => rfl
  | cons line lines ih => exact ih

theorem joints_commands (item : Item) (before : List Char) (script : List Command) :
    listing.joints before (item.commands ++ script) =
      (listing.run item.commands).joints before script :=
  joints_run_directives item.lines before script

theorem joints_cons_of_isSilent {command : Command} (silent : command.isSilent = true)
    (before : List Char) (script : List Command) :
    listing.joints before (command :: script) = (listing.apply command).joints before script := by
  cases command <;> first | rfl | contradiction

end Listing

/-- Two lexemes that a line holds without a blank between them begin no comment. -/
theorem Listing.Blanked.not_mayOpenComment_of_joins {listing : Listing} {last lexeme : List Char}
    {spacing own : Spacing} (blanked : listing.Blanked spacing) (guarded : Guarded last spacing)
    (ownGuarded : Guarded lexeme own) (joins : listing.joins lexeme own = true)
    (slash : last = ['/']) : ¬ Scan.MayOpenComment lexeme := by
  intro opens
  rcases blanked.of_joins joins with right | left
  · rw [guarded.right slash] at right
    contradiction
  · rw [ownGuarded.left opens] at left
    contradiction

namespace Holds

variable {listing : Listing} {items : List Item} {joints : List Joint} {last : List Char}
variable {dangling : Bool}

/-- A directive is written below the pending line. -/
theorem directive (holds : Holds listing items joints last false) {item : Item}
    (proper : item.Proper) (directive : item.isDirective = true)
    (unparted : (listing.run item.commands).Unparted) :
    Holds (listing.run item.commands) (items ++ [item]) joints last item.dangles := by
  have ended := holds.endLine false
  have empty := Listing.pending_endLine listing false
  have isDirective := proper.isDirective_lines directive
  have lines := Listing.lines_run_directives isDirective.shape isDirective.trimmed empty unparted
  have written := Listing.written_makeRoom ended.plainName (ended.written empty)
  obtain ⟨layout, name, pending⟩ := Listing.frame_run_directives empty item.lines
  apply ofWritten
  · rw [Item.commands, Listing.run_cons, Listing.apply]
    exact name.symm ▸ ended.plainName
  · have added := Written.directive proper directive written
    rw [Item.copies, ← lines, ← layout] at added
    exact added
  · exact pending

/-- A script without reports adds its items and joints. -/
theorem run {script : List Command} {more : List Item} (scripted : Scripted script more)
    (reportless : script.countP Command.isReport = 0) (proper : ∀ item ∈ more, item.Proper)
    (atEnd : more.Pairwise fun item _ => item.dangles = false)
    (holds : Holds listing items joints last dangling) {spacing : Spacing}
    (blanked : listing.Blanked spacing) (guarded : Guarded last spacing)
    (closing : dangling = true → more = []) (unparted : (listing.run script).Unparted) :
    ∃ final danglingEnd, Holds (listing.run script) (items ++ more)
      (joints ++ listing.joints last script) final danglingEnd := by
  induction scripted generalizing listing items joints last dangling spacing with
  | nil => exact ⟨last, dangling, by simpa [Listing.joints] using holds⟩
  | @silent command script more silent scripted ih =>
    rw [List.countP_cons, Nat.add_eq_zero_iff] at reportless
    rw [Listing.joints_cons_of_isSilent silent]
    exact ih reportless.1 proper atEnd (holds.apply_of_isSilent silent)
      (blanked.apply_of_isSilent silent) guarded closing unparted
  | report => simp [Command.isReport] at reportless
  | @token item own script more token ownGuarded scripted ih =>
    obtain rfl : dangling = false :=
      Bool.eq_false_iff.mpr fun dangles => List.cons_ne_nil _ _ (closing dangles)
    have spelling := (proper item List.mem_cons_self).spelling token
    have noComment := blanked.not_mayOpenComment_of_joins guarded ownGuarded
    rw [List.countP_cons, Nat.add_eq_zero_iff] at reportless
    obtain ⟨final, danglingEnd, later⟩ := ih reportless.1
      (fun other member => proper other (List.mem_cons_of_mem _ member)) atEnd.of_cons
      (holds.append spelling noComment) (Listing.blanked_append _ _ _) ownGuarded
      (fun contrary => Bool.noConfusion contrary) unparted
    rw [List.append_assoc, List.append_assoc] at later
    exact ⟨final, danglingEnd, later⟩
  | @directive item script more directive scripted ih =>
    obtain rfl : dangling = false :=
      Bool.eq_false_iff.mpr fun dangles => List.cons_ne_nil _ _ (closing dangles)
    rw [List.countP_append, Nat.add_eq_zero_iff] at reportless
    rw [Listing.run_append] at unparted ⊢
    have before := unparted.of_isPrefix (Listing.isPrefix_run _ script)
    have closes : item.dangles = true → more = [] := by
      intro dangles
      cases more with
      | nil => rfl
      | cons next others =>
        rw [(List.pairwise_cons.mp atEnd).1 next List.mem_cons_self] at dangles
        contradiction
    obtain ⟨final, danglingEnd, later⟩ := ih reportless.2
      (fun other member => proper other (List.mem_cons_of_mem _ member)) atEnd.of_cons
      (holds.directive (proper item List.mem_cons_self) directive before)
      (Or.inl (Listing.pending_run_commands listing item)) guarded closes unparted
    rw [List.append_assoc] at later
    rw [Listing.joints_commands]
    exact ⟨final, danglingEnd, later⟩

end Holds

end CListing
