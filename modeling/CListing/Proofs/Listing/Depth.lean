import CListing.Proofs.Listing.Kept
import CListing.Proofs.Listing.Width
import Mathlib.Algebra.Order.Ring.Int

/-!
# The depth of a script

The indentation of a listing follows from the steps in and out of the script alone. As long as a
script never leads above the depth at which it began, its depth is a number of levels.
-/

namespace CListing

/-- The levels that the command goes deeper. -/
def Command.shift : Command → Int
  | .indent => 1
  | .unindent => -1
  | _ => 0

/-- The levels that the script goes deeper. -/
def shifts (script : List Command) : Int :=
  (script.map Command.shift).sum

@[simp]
theorem shifts_append (first second : List Command) :
    shifts (first ++ second) = shifts first + shifts second := by
  simp [shifts]

/-- The depth after the command, unless it goes above the outermost level. -/
def Command.depth? (depth : Nat) : Command → Option Nat
  | .indent => some (depth + 1)
  | .unindent =>
    match depth with
    | 0 => none
    | outer + 1 => some outer
  | _ => some depth

/-- The depth after the script, unless it goes above the outermost level anywhere. -/
def depth? (depth : Nat) : List Command → Option Nat
  | [] => some depth
  | command :: script => (command.depth? depth).bind fun next => depth? next script

theorem depth?_append (depth : Nat) (first second : List Command) :
    depth? depth (first ++ second) = (depth? depth first).bind fun next => depth? next second := by
  induction first generalizing depth with
  | nil => rfl
  | cons command first ih =>
    rw [List.cons_append, depth?, depth?, Option.bind_assoc]
    exact Option.bind_congr fun next _ => ih next

theorem Command.depth?_add {command : Command} {depth next : Nat}
    (found : command.depth? depth = some next) (outer : Nat) :
    command.depth? (depth + outer) = some (next + outer) := by
  cases command with
  | indent =>
    obtain rfl := Option.some.inj found
    exact congrArg some (Nat.add_right_comm depth outer 1)
  | unindent =>
    cases depth with
    | zero => contradiction
    | succ depth =>
      obtain rfl := Option.some.inj found
      rw [Nat.add_right_comm]
      rfl
  | _ =>
    obtain rfl := Option.some.inj found
    rfl

/-- Inside more levels the script goes as deep. -/
theorem depth?_add {depth last : Nat} {script : List Command}
    (found : depth? depth script = some last) (outer : Nat) :
    depth? (depth + outer) script = some (last + outer) := by
  induction script generalizing depth with
  | nil =>
    obtain rfl := Option.some.inj found
    rfl
  | cons command script ih =>
    obtain ⟨next, first, later⟩ := Option.bind_eq_some_iff.mp found
    rw [depth?, Command.depth?_add first, Option.bind_some, ih later]

/-- Commands that are no shifts do not change the depth. -/
theorem depth?_of_not_isShift {script : List Command}
    (stays : ∀ command ∈ script, command.isShift = false) (depth : Nat) :
    depth? depth script = some depth := by
  induction script with
  | nil => rfl
  | cons command script ih =>
    have first : command.depth? depth = some depth := by
      have stay := stays command List.mem_cons_self
      cases command <;> first | rfl | contradiction
    rw [depth?, first, Option.bind_some]
    exact ih fun other member => stays other (List.mem_cons_of_mem _ member)

theorem Command.shift_of_depth? {command : Command} {depth next : Nat}
    (found : command.depth? depth = some next) : (next : Int) = depth + command.shift := by
  cases command with
  | indent =>
    obtain rfl := Option.some.inj found
    rfl
  | unindent =>
    cases depth with
    | zero => contradiction
    | succ depth =>
      obtain rfl := Option.some.inj found
      rw [Command.shift]
      omega
  | _ =>
    obtain rfl := Option.some.inj found
    exact (Int.add_zero _).symm

theorem shifts_of_depth? {depth last : Nat} {script : List Command}
    (found : depth? depth script = some last) : (last : Int) = depth + shifts script := by
  induction script generalizing depth with
  | nil =>
    obtain rfl := Option.some.inj found
    exact (Int.add_zero _).symm
  | cons command script ih =>
    obtain ⟨next, first, later⟩ := Option.bind_eq_some_iff.mp found
    have step := Command.shift_of_depth? first
    have rest := ih later
    rw [show shifts (command :: script) = command.shift + shifts script from rfl]
    omega

/-- Nowhere in such a script the depth is less than at its beginning. -/
theorem shifts_nonneg_of_start {script before : List Command} {last : Nat}
    (found : depth? 0 script = some last) (begins : before <+: script) : 0 ≤ shifts before := by
  obtain ⟨rest, rfl⟩ := begins
  rw [depth?_append] at found
  obtain ⟨next, first, _⟩ := Option.bind_eq_some_iff.mp found
  have depth := shifts_of_depth? first
  omega

namespace Listing

theorem indentation_flush (listing : Listing) :
    listing.flush.indentation = listing.indentation :=
  indentation_writeLine listing .code listing.pending true

theorem indentation_flushAny (listing : Listing) :
    listing.flushAny.indentation = listing.indentation := by
  unfold flushAny
  split
  · rfl
  · exact indentation_flush listing

theorem indentation_endLine (listing : Listing) (forced : Bool) :
    (listing.endLine forced).indentation = listing.indentation := by
  unfold endLine
  dsimp only
  split
  · exact indentation_flushAny _
  · exact indentation_flushAny _

theorem indentation_append (listing : Listing) (lexeme : List Char) (spacing : Spacing) :
    (listing.append lexeme spacing).indentation = listing.indentation := by
  have drawn : (if spacing.joinsLeft then listing.dropSeparator else listing).indentation =
      listing.indentation := by
    split
    · unfold dropSeparator
      split <;> rfl
    · rfl
  simp only [append]
  generalize (if spacing.joinsLeft then listing.dropSeparator else listing) = start at drawn ⊢
  rw [← drawn]
  split
  · exact indentation_flush start
  · rfl

/-- The indentation changes with the depth only. -/
theorem indentation_apply (listing : Listing) (command : Command) :
    (listing.apply command).indentation =
      listing.indentation + listing.layout.indentSize * command.shift := by
  cases command with
  | indent => rw [Command.shift, Int.mul_one]; rfl
  | unindent => rw [Command.shift, Int.mul_neg_one]; rfl
  | append lexeme spacing => simp [apply, Command.shift, indentation_append]
  | endLine forced => simp [apply, Command.shift, indentation_endLine]
  | skipLine => simp [apply, Command.shift, indentation_writeLine, indentation_endLine]
  | newPage => simp [apply, Command.shift, newPage]
  | endPage => simp [apply, Command.shift]
  | directive text => simp [apply, Command.shift, indentation_writeLine, indentation_endLine]
  | report text => simp [apply, Command.shift, indentation_writeLine]
  | write text indented => simp [apply, Command.shift, indentation_writeLine]

theorem indentation_run (listing : Listing) (script : List Command) :
    (listing.run script).indentation =
      listing.indentation + listing.layout.indentSize * shifts script := by
  induction script generalizing listing with
  | nil => simp [shifts]
  | cons command script ih =>
    rw [run_cons, ih, layout_apply, indentation_apply]
    rw [show shifts (command :: script) = command.shift + shifts script from rfl, Int.mul_add,
      Int.add_assoc]

end Listing

end CListing
