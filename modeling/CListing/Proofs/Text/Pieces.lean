import CListing.Text.Pieces

/-!
# Pieces that are put together

Pieces contain no separator, and pieces without separators that are put together are found again.
-/

namespace CListing.Text

variable {separator : Char}

theorem pieces_cons_of_ne {c : Char} (different : c ≠ separator) {rest piece : List Char}
    {more : List (List Char)} (cut : pieces separator rest = piece :: more) :
    pieces separator (c :: rest) = (c :: piece) :: more := by
  simp [pieces, different, cut]

/-- No piece contains the separator. -/
theorem not_mem_of_mem_pieces {text piece : List Char} (member : piece ∈ pieces separator text) :
    separator ∉ piece := by
  induction text generalizing piece with
  | nil =>
    obtain rfl : piece = [] := by simpa [pieces] using member
    simp
  | cons c rest ih =>
    by_cases cut : c = separator
    · simp only [pieces, if_pos cut, List.mem_cons] at member
      rcases member with rfl | later
      · simp
      · exact ih later
    · cases found : pieces separator rest with
      | nil => exact absurd found (pieces_ne_nil separator rest)
      | cons first more =>
        rw [pieces_cons_of_ne cut found, List.mem_cons] at member
        rcases member with rfl | later
        · have inner := ih (show first ∈ pieces separator rest by simp [found])
          simpa [Ne.symm cut] using inner
        · exact ih (by simp [found, later])

theorem pieces_of_not_mem {text : List Char} (plain : separator ∉ text) :
    pieces separator text = [text] := by
  induction text with
  | nil => rfl
  | cons c rest ih =>
    rw [List.mem_cons, not_or] at plain
    exact pieces_cons_of_ne (Ne.symm plain.1) (ih plain.2)

/-- A separator after a text without one ends its piece. -/
theorem pieces_append_cons {text : List Char} (plain : separator ∉ text) (rest : List Char) :
    pieces separator (text ++ separator :: rest) = text :: pieces separator rest := by
  induction text with
  | nil => simp [pieces]
  | cons c more ih =>
    rw [List.mem_cons, not_or] at plain
    exact pieces_cons_of_ne (Ne.symm plain.1) (ih plain.2)

theorem joined_cons_cons (first second : List Char) (more : List (List Char)) :
    joined separator (first :: second :: more) =
      first ++ separator :: joined separator (second :: more) := by
  simp [joined, List.intercalate]

theorem joined_singleton (text : List Char) : joined separator [text] = text := by
  simp [joined, List.intercalate]

/-- The first character of the texts is that of the first one. -/
theorem joined_cons (c : Char) (text : List Char) (more : List (List Char)) :
    joined separator ((c :: text) :: more) = c :: joined separator (text :: more) := by
  cases more with
  | nil => rw [joined_singleton, joined_singleton]
  | cons second others => rw [joined_cons_cons, joined_cons_cons, List.cons_append]

theorem joined_append (start text : List Char) (more : List (List Char)) :
    joined separator ((start ++ text) :: more) = start ++ joined separator (text :: more) := by
  induction start with
  | nil => rfl
  | cons c start ih => rw [List.cons_append, joined_cons, ih, List.cons_append]

/-- Texts that each end in a separator are the texts put together with one more separator. -/
theorem flatMap_append_separator {texts : List (List Char)} (nonempty : texts ≠ []) :
    texts.flatMap (· ++ [separator]) = joined separator texts ++ [separator] := by
  induction texts with
  | nil => contradiction
  | cons first more ih =>
    cases more with
    | nil => rw [List.flatMap_singleton, joined_singleton]
    | cons second others =>
      rw [List.flatMap_cons, ih (by simp), joined_cons_cons]
      simp

/-- A separator stands before the last of several texts. -/
theorem joined_concat {texts : List (List Char)} (nonempty : texts ≠ []) (last : List Char) :
    joined separator (texts ++ [last]) = joined separator texts ++ separator :: last := by
  induction texts with
  | nil => contradiction
  | cons first more ih =>
    cases more with
    | nil => simp [joined_cons_cons, joined_singleton]
    | cons second others =>
      have later := ih (by simp)
      simp only [List.cons_append] at later ⊢
      rw [joined_cons_cons, joined_cons_cons, later, List.append_assoc, List.cons_append]

/-- Texts without separators are found again after they were put together. -/
theorem pieces_joined {texts : List (List Char)} (nonempty : texts ≠ [])
    (plain : ∀ text ∈ texts, separator ∉ text) :
    pieces separator (joined separator texts) = texts := by
  induction texts with
  | nil => contradiction
  | cons first more ih =>
    cases more with
    | nil =>
      rw [joined_singleton]
      exact pieces_of_not_mem (plain first (by simp))
    | cons second others =>
      rw [joined_cons_cons, pieces_append_cons (plain first (by simp))]
      rw [ih (by simp) fun text member => plain text (by simp [member])]

end CListing.Text
