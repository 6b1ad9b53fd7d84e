/-!
# Pieces between separators

A text is cut at every separator, so there is one piece more than there are separators. Putting the
separators back gives the text.
-/

namespace CListing.Text

/-- The pieces between the separators of a text. -/
def pieces (separator : Char) : List Char → List (List Char)
  | [] => [[]]
  | c :: rest =>
    if c = separator then [] :: pieces separator rest
    else
      match pieces separator rest with
      | piece :: more => (c :: piece) :: more
      | [] => [[c]]

/-- The texts with a separator between neighbours. -/
def joined (separator : Char) (texts : List (List Char)) : List Char :=
  List.intercalate [separator] texts

theorem pieces_ne_nil (separator : Char) (text : List Char) : pieces separator text ≠ [] := by
  fun_cases pieces separator text <;> simp_all

/-- Putting the separators back gives the text. -/
theorem joined_pieces (separator : Char) (text : List Char) :
    joined separator (pieces separator text) = text := by
  induction text with
  | nil => rfl
  | cons c rest ih =>
    cases found : pieces separator rest with
    | nil => exact absurd found (pieces_ne_nil separator rest)
    | cons piece more =>
      rw [found] at ih
      by_cases cut : c = separator
      · subst cut
        simp only [pieces, if_true, found]
        simpa [joined, List.intercalate, List.intersperse] using ih
      · simp only [pieces, cut, if_false, found]
        cases more with
        | nil => simpa [joined, List.intercalate] using ih
        | cons next others => simpa [joined, List.intercalate, List.intersperse] using ih

end CListing.Text
