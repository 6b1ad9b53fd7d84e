import CListing.Scan.Literal

/-!
# Ends of literals

A literal ends at the first quote with an even number of backslashes directly before it, or with the
text if there is none. A closed literal ends with its closing quote, so it does not depend on what
follows: what was cut off as a closed literal is cut off again before any other text.
-/

namespace CListing

/-- A character that is no backslash ends a literal or belongs to it. -/
theorem literalTail_cons {quote c : Char} (plain : c ≠ '\\') (rest : List Char) :
    literalTail quote (c :: rest) =
      if c = quote then { extent := [c], rest := rest } else (literalTail quote rest).push c := by
  rw [literalTail]
  intro d more escape
  exact absurd escape plain

/-- A closed literal is cut off whatever follows. -/
theorem literalTail_extent_append {quote : Char} {text : List Char} (mark : quote ≠ '\\')
    (closed : (literalTail quote text).closed = true) (rest : List Char) :
    literalTail quote ((literalTail quote text).extent ++ rest) =
      { extent := (literalTail quote text).extent, rest := rest } := by
  fun_induction literalTail quote text with
  | case1 => contradiction
  | case2 c more ih =>
    have tail := ih closed
    simp [literalTail, tail, Cut.push]
  | case3 more => simp [literalTail_cons mark]
  | case4 c more notEscape different ih =>
    have plain : c ≠ '\\' := by
      rintro rfl
      cases more with
      | nil => contradiction
      | cons d others => exact notEscape d others rfl rfl
    have tail := ih closed
    simp [literalTail_cons plain, different, tail, Cut.push]

/-- A closed literal ends with its quote. -/
theorem getLast?_extent_literalTail {quote : Char} {text : List Char}
    (closed : (literalTail quote text).closed = true) :
    (literalTail quote text).extent.getLast? = some quote := by
  fun_induction literalTail quote text with
  | case1 => contradiction
  | case2 c more ih => simp [List.getLast?_cons, ih closed]
  | case3 more => rfl
  | case4 c more _ _ ih => simp [List.getLast?_cons, ih closed]

/-! ## The closing quote -/

/-- The number of backslashes directly before a place of the text. -/
def backslashesBefore (text : List Char) (place : Nat) : Nat :=
  ((text.take place).reverse.takeWhile (· = '\\')).length

/-- The quote at the place ends a literal whose opening quote stands before the text: the
backslashes directly before it are even in number. -/
def ClosesAt (quote : Char) (text : List Char) (place : Nat) : Prop :=
  text[place]? = some quote ∧ backslashesBefore text place % 2 = 0

instance (quote : Char) (text : List Char) (place : Nat) : Decidable (ClosesAt quote text place) :=
  inferInstanceAs (Decidable (_ ∧ _))

/-- A character that is no backslash parts those before it from those behind it. -/
theorem backslashesBefore_cons {c : Char} (plain : c ≠ '\\') (text : List Char) (place : Nat) :
    backslashesBefore (c :: text) (place + 1) = backslashesBefore text place := by
  rw [backslashesBefore, List.take_succ_cons, List.reverse_cons, List.takeWhile_append,
    List.takeWhile_cons_of_neg (by simpa using plain), List.append_nil]
  split
  · rename_i all
    rw [backslashesBefore, all]
  · rfl

/-- A backslash and the character that it takes along do not change the parity. -/
theorem backslashesBefore_escape (c : Char) (text : List Char) (place : Nat) :
    backslashesBefore ('\\' :: c :: text) (place + 2) % 2 = backslashesBefore text place % 2 := by
  rw [backslashesBefore, List.take_succ_cons, List.take_succ_cons, List.reverse_cons,
    List.reverse_cons, List.append_assoc, List.singleton_append, List.takeWhile_append]
  split
  · rename_i all
    rw [backslashesBefore, all]
    by_cases escape : c = '\\'
    · simp [escape]
    · simp [escape]
  · rfl

theorem closesAt_cons {quote c : Char} (plain : c ≠ '\\') (text : List Char) (place : Nat) :
    ClosesAt quote (c :: text) (place + 1) ↔ ClosesAt quote text place := by
  rw [ClosesAt, ClosesAt, backslashesBefore_cons plain, List.getElem?_cons_succ]

theorem closesAt_escape (quote c : Char) (text : List Char) (place : Nat) :
    ClosesAt quote ('\\' :: c :: text) (place + 2) ↔ ClosesAt quote text place := by
  rw [ClosesAt, ClosesAt, backslashesBefore_escape, List.getElem?_cons_succ,
    List.getElem?_cons_succ]

/-- A quote behind a single backslash does not close the literal, and a backslash is no quote. -/
theorem not_closesAt_escape {quote : Char} (mark : quote ≠ '\\') (c : Char) (text : List Char)
    {place : Nat} (early : place < 2) : ¬ ClosesAt quote ('\\' :: c :: text) place := by
  rintro ⟨here, even⟩
  rcases (by omega : place = 0 ∨ place = 1) with rfl | rfl
  · exact mark (by simpa using here.symm)
  · simp [backslashesBefore] at even

/-- Where a literal ends: directly behind the first quote that closes it. -/
inductive LiteralEnd (quote : Char) (text : List Char) : Cut → Prop
  | closed {place : Nat} (closes : ClosesAt quote text place)
      (first : ∀ earlier < place, ¬ ClosesAt quote text earlier) :
      LiteralEnd quote text { extent := text.take (place + 1), rest := text.drop (place + 1) }
  | unclosed (never : ∀ place, ¬ ClosesAt quote text place) :
      LiteralEnd quote text { extent := text, rest := [], closed := false }

namespace LiteralEnd

variable {quote : Char} {text : List Char} {cut : Cut}

/-- A character that is neither a backslash nor the quote belongs to the literal. -/
theorem push (ends : LiteralEnd quote text cut) {c : Char} (plain : c ≠ '\\')
    (different : c ≠ quote) : LiteralEnd quote (c :: text) (cut.push c) := by
  have notHere : ¬ ClosesAt quote (c :: text) 0 := fun closes =>
    different (by simpa using closes.1)
  cases ends with
  | @closed place closes first =>
    refine closed ((closesAt_cons plain text place).mpr closes) fun earlier before => ?_
    cases earlier with
    | zero => exact notHere
    | succ earlier =>
      rw [closesAt_cons plain]
      exact first earlier (Nat.lt_of_succ_lt_succ before)
  | unclosed never =>
    refine .unclosed fun place => ?_
    cases place with
    | zero => exact notHere
    | succ place =>
      rw [closesAt_cons plain]
      exact never place

/-- A backslash and the character that it takes along belong to the literal. -/
theorem pushEscape (ends : LiteralEnd quote text cut) (mark : quote ≠ '\\') (c : Char) :
    LiteralEnd quote ('\\' :: c :: text) ((cut.push c).push '\\') := by
  have notBefore {place : Nat} (early : place < 2) : ¬ ClosesAt quote ('\\' :: c :: text) place :=
    not_closesAt_escape mark c text early
  cases ends with
  | @closed place closes first =>
    refine closed ((closesAt_escape quote c text place).mpr closes) fun earlier before => ?_
    match earlier with
    | 0 => exact notBefore (by decide)
    | 1 => exact notBefore (by decide)
    | earlier + 2 =>
      rw [closesAt_escape]
      exact first earlier (by omega)
  | unclosed never =>
    refine .unclosed fun place => ?_
    match place with
    | 0 => exact notBefore (by decide)
    | 1 => exact notBefore (by decide)
    | place + 2 =>
      rw [closesAt_escape]
      exact never place

end LiteralEnd

/-- A literal ends at the first quote with an even number of backslashes before it. -/
theorem literalEnd_literalTail {quote : Char} (mark : quote ≠ '\\') (text : List Char) :
    LiteralEnd quote text (literalTail quote text) := by
  fun_induction literalTail quote text with
  | case1 => exact .unclosed fun place closes => by simp [ClosesAt] at closes
  | case2 c rest ih => exact ih.pushEscape mark c
  | case3 rest notEscape =>
    have closes : ClosesAt quote (quote :: rest) 0 := ⟨rfl, rfl⟩
    exact .closed closes fun earlier before => absurd before (Nat.not_lt_zero _)
  | case4 c rest notEscape different ih =>
    by_cases escape : c = '\\'
    · -- Only a backslash at the end of the text takes nothing along.
      subst escape
      cases rest with
      | nil =>
        refine .unclosed fun place closes => ?_
        cases place with
        | zero => exact mark (by simpa using closes.1.symm)
        | succ place => simp [ClosesAt] at closes
      | cons d more => exact absurd rfl (notEscape d more rfl)
    · exact ih.push escape different

end CListing
