import CListing.Proofs.Listing.Copy
import CListing.Proofs.Listing.Row

/-!
# Lines written for items

The lines of a listing without reports: rows of lexemes behind blanks, copies of directives, and
lines that come back empty. Read back, they are woven of the items that they were written for. They
are intact if every joint holds apart and every row comes back as it was written.
-/

namespace CListing

open Unicode Scan

/-- A row of lexemes that comes back as it was written; other lines do not count. -/
def Line.Whole (line : Line) : Prop :=
  line.origin = .code → line.ReadsBack

instance (line : Line) : Decidable line.Whole :=
  inferInstanceAs (Decidable (_ → _))

/-- The lines were written for the items, with the given joints in their rows. The flag says whether
the last item is a directive whose last line ends in a backslash. -/
inductive Written (margin : Int) : List Line → List Item → List Joint → Bool → Prop
  | nil : Written margin [] [] [] false
  | passed {lines : List Line} {items : List Item} {joints : List Joint} {dangling : Bool}
      {line : Line} (notCode : line.origin ≠ .code) (empty : line.readBack = ['\n'])
      (before : Written margin lines items joints dangling) :
      Written margin (lines ++ [line]) items joints dangling
  | row {lines : List Line} {items tokens : List Item} {joints more : List Joint}
      {indent text last : List Char} (blank : ∀ c ∈ indent, c = ' ')
      (row : Row text tokens more last) (before : Written margin lines items joints false) :
      Written margin (lines ++ [{ origin := .code, text := indent ++ text }]) (items ++ tokens)
        (joints ++ more) false
  | directive {lines : List Line} {items : List Item} {joints : List Joint} {item : Item}
      (proper : item.Proper) (directive : item.isDirective = true)
      (before : Written margin lines items joints false) :
      Written margin (lines ++ item.copies margin) (items ++ [item]) joints item.dangles

/-- The tokens of a row come back as they are. -/
theorem Row.map_reread {text last : List Char} {items : List Item} {joints : List Joint}
    (row : Row text items joints last) (margin : Int) :
    items.map (Item.reread margin) = items := by
  have kept {item : Item} (spelling : Spelling item.category item.lexeme) :
      item.reread margin = item :=
    Item.reread_of_token margin (Item.isDirective_of_isToken spelling.isToken)
  induction row with
  | single spelling => rw [List.map_singleton, kept spelling]
  | spaced _ spelling ih => rw [List.map_append, ih, List.map_singleton, kept spelling]
  | joined _ spelling _ ih => rw [List.map_append, ih, List.map_singleton, kept spelling]

/-- A line feed stands behind the blanks that a line begins with. -/
theorem exists_behind_blanks {indent text front more : List Char} (blank : ∀ c ∈ indent, c = ' ')
    (split : indent ++ text = front ++ '\n' :: more) :
    ∃ behind, front = indent ++ behind ∧ text = behind ++ '\n' :: more := by
  induction indent generalizing front with
  | nil => exact ⟨front, rfl, split⟩
  | cons c indent ih =>
    cases front with
    | nil =>
      have feed := (List.cons.inj split).1
      rw [blank c List.mem_cons_self] at feed
      contradiction
    | cons d front =>
      obtain ⟨rfl, rest⟩ := List.cons.inj split
      obtain ⟨behind, rfl, textEq⟩ :=
        ih (fun d member => blank d (List.mem_cons_of_mem _ member)) rest
      exact ⟨behind, rfl, textEq⟩

/-- A row between blanks and a line feed is woven, whether or not it comes back as it was. -/
theorem Row.woven_readBack {text indent last : List Char} {items others : List Item}
    {joints : List Joint} (row : Row text items joints last) (blank : ∀ c ∈ indent, c = ' ')
    {rest : List Char} {intact : Bool} (later : Woven rest others intact) :
    Woven (Line.readBack { origin := .code, text := indent ++ text } ++ rest) (items ++ others)
      (joints.all (·.HoldsApart) &&
        (decide (Line.Whole { origin := .code, text := indent ++ text }) && intact)) := by
  have feed : isBlank '\n' = true := by decide
  have blanks : ∀ c ∈ indent, isBlank c = true := by
    intro c member
    rw [blank c member]
    decide
  by_cases back : Line.ReadsBack { origin := .code, text := indent ++ text }
  · have whole : Line.Whole { origin := .code, text := indent ++ text } := fun _ => back
    have woven := row.woven (Woven.blank feed later) fun _ => by simp [MayOpenComment]
    have apart : ReadsApart last ('\n' :: rest) := readsApart_cons_of_isBlank last feed rest
    rw [decide_eq_true apart, Bool.true_and] at woven
    rw [show Line.readBack _ = _ from back, decide_eq_true whole, Bool.true_and]
    simpa using woven.append_blanks blanks
  · have lost : ¬ Line.Whole { origin := .code, text := indent ++ text } := fun whole =>
      back (whole rfl)
    rw [decide_eq_false lost, Bool.false_and, Bool.and_false]
    obtain ⟨nonempty, ink, _⟩ := row.ink_ends
    have begins : (indent ++ text).head? ≠ some '\x0c' := by
      intro mark
      cases indent with
      | nil =>
        rw [List.nil_append] at mark
        rw [mark] at ink
        contradiction
      | cons c indent =>
        rw [List.cons_append, List.head?_cons, blank c List.mem_cons_self] at mark
        contradiction
    obtain ⟨front, inside, after, split, changed⟩ := Line.exists_torn begins back
    obtain ⟨behind, rfl, textEq⟩ := exists_behind_blanks blank split
    have torn := row.woven_torn textEq (after ++ rest) others
    rw [changed]
    simpa using torn.append_blanks blanks

namespace Written

variable {margin : Int} {lines : List Line} {items : List Item} {joints : List Joint}
variable {dangling : Bool}

/-- Lines that are read back are woven of what comes back of their items. -/
theorem woven (written : Written margin lines items joints dangling) {rest : List Char}
    {others : List Item} {intact : Bool} (later : Woven rest others intact)
    (closing : dangling = true → ∀ c ∈ rest, c = '\n') :
    Woven (lines.flatMap Line.readBack ++ rest) (items.map (Item.reread margin) ++ others)
      (joints.all (·.HoldsApart) && (lines.all (·.Whole) && intact)) := by
  induction written generalizing rest others intact with
  | nil => simpa using later
  | @passed lines items joints dangling line notCode empty before ih =>
    have whole : line.Whole := fun code => absurd code notCode
    have closes : dangling = true → ∀ c ∈ '\n' :: rest, c = '\n' := by
      intro dangles c member
      rcases List.mem_cons.mp member with rfl | inside
      · rfl
      · exact closing dangles c inside
    have woven := ih (Woven.blank (c := '\n') (by decide) later) closes
    rw [List.flatMap_append, List.flatMap_singleton, empty, List.append_assoc]
    simpa [whole] using woven
  | @row lines items tokens joints more indent text last blank row before ih =>
    have woven := ih (row.woven_readBack blank later) fun contrary => Bool.noConfusion contrary
    rw [List.flatMap_append, List.flatMap_singleton, List.append_assoc, List.map_append,
      row.map_reread, List.append_assoc, List.all_append, List.all_append]
    have flags : ∀ a b c d e : Bool, (a && (b && (c && (d && e)))) =
        ((a && c) && ((b && d) && e)) := by decide
    rw [flags] at woven
    simpa using woven
  | @directive lines items joints item proper directive before ih =>
    have copied : (item.copies margin).all (·.Whole) = true := by
      rw [List.all_eq_true]
      intro line member
      obtain ⟨original, _, rfl⟩ := List.mem_map.mp member
      exact decide_eq_true fun code => Line.Origin.noConfusion code
    have woven := ih (Item.woven_copies proper directive margin later closing)
      fun contrary => Bool.noConfusion contrary
    rw [List.flatMap_append, List.append_assoc, List.all_append, copied, Bool.and_true]
    simpa using woven

end Written

end CListing
