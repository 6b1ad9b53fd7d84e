import CListing.Proofs.Reader.Woven

/-!
# Rows of lexemes

The pending line of a listing is a row of lexemes. Between two neighbours there is one blank or
nothing; where there is nothing, they form a joint. A row is woven of its tokens, and they read
apart if every joint does.
-/

namespace CListing

open Unicode Scan

/-- Two neighbours in a line without a blank between them. -/
structure Joint where
  left : List Char
  right : List Char
deriving DecidableEq, Repr

/-- The left lexeme does not run on into the right one. -/
def Joint.HoldsApart (joint : Joint) : Prop :=
  ReadsApart joint.left joint.right

instance (joint : Joint) : Decidable joint.HoldsApart :=
  inferInstanceAs (Decidable (ReadsApart _ _))

/-- A text of lexemes with the items and joints in it, and its last lexeme. -/
inductive Row : List Char → List Item → List Joint → List Char → Prop
  | single {item : Item} (spelling : Spelling item.category item.lexeme) :
      Row item.lexeme [item] [] item.lexeme
  | spaced {text : List Char} {items : List Item} {joints : List Joint} {last : List Char}
      {item : Item} (row : Row text items joints last)
      (spelling : Spelling item.category item.lexeme) :
      Row (text ++ ' ' :: item.lexeme) (items ++ [item]) joints item.lexeme
  | joined {text : List Char} {items : List Item} {joints : List Joint} {last : List Char}
      {item : Item} (row : Row text items joints last)
      (spelling : Spelling item.category item.lexeme)
      (noComment : last = ['/'] → ¬ MayOpenComment item.lexeme) :
      Row (text ++ item.lexeme) (items ++ [item])
        (joints ++ [{ left := last, right := item.lexeme }]) item.lexeme

namespace Spelling

variable {category : Category} {lexeme : List Char}

/-- Only a slash before an asterisk or a slash looks like a comment. -/
theorem opensComment_append (spelling : Spelling category lexeme) {rest : List Char}
    (noComment : lexeme = ['/'] → ¬ MayOpenComment rest) :
    opensComment (lexeme ++ rest) = false := by
  cases opens : opensComment (lexeme ++ rest) with
  | false => rfl
  | true =>
    obtain ⟨c, more, rfl, _, _⟩ := spelling.exists_cons
    obtain ⟨rfl, second⟩ := opensComment_cons_iff.mp opens
    cases more with
    | nil => exact absurd second (noComment rfl)
    | cons d others =>
      have cut := spelling.ofText_append (readsApart_nil _)
      have token := spelling.isToken
      rw [List.append_nil] at cut
      have alone : opensComment ('/' :: d :: others) = true :=
        opensComment_cons_iff.mpr ⟨rfl, second⟩
      rw [← show (ofText ('/' :: d :: others)).category = category from congrArg Scan.category cut,
        category_of_opensComment alone] at token
      contradiction

/-- A lexeme that breaks off is lost. -/
theorem woven_torn {item : Item} (spelling : Spelling item.category item.lexeme)
    {front back : List Char} (split : item.lexeme = front ++ '\n' :: '\x0c' :: back)
    (rest : List Char) (items : List Item) :
    Woven (front ++ '\n' :: '\n' :: rest) (item :: items) false := by
  have begins : (front ++ '\n' :: '\n' :: rest).head? = item.lexeme.head? := by
    simp [split, List.head?_append]
  refine Woven.torn spelling begins ?_ ?_
  · rcases spelling.isBlank_of_mem with ⟨mark, quote, body, shape, markEq, quoteEq, _⟩ | ⟨_, ink⟩
    · have noSlash : item.lexeme.head? ≠ some '/' := by
        rw [shape]
        rcases markEq with rfl | rfl <;> rcases quoteEq with rfl | rfl <;> simp
      rw [opensComment, begins, decide_eq_false noSlash, Bool.false_and]
    · have inside := ink '\n' (by simp [split])
      exact absurd inside (by decide)
  · intro kept
    rw [split, List.prefix_append_right_inj, List.cons_prefix_cons, List.cons_prefix_cons] at kept
    exact absurd kept.2.1 (by decide)

end Spelling

namespace Row

variable {text : List Char} {items : List Item} {joints : List Joint} {last : List Char}

/-- A row neither begins nor ends with a blank. -/
theorem ink_ends (row : Row text items joints last) :
    text ≠ [] ∧ text.head?.any isBlank = false ∧ text.getLast?.any isBlank = false := by
  induction row with
  | single spelling => exact spelling.ink_ends
  | spaced row spelling ih =>
    obtain ⟨nonempty, begins, _⟩ := ih
    obtain ⟨lexeme_ne, _, ends⟩ := spelling.ink_ends
    refine ⟨by simp, ?_, ?_⟩
    · rwa [List.head?_append_of_ne_nil _ nonempty]
    · rwa [List.getLast?_append_of_ne_nil _ (by simp), List.getLast?_cons_of_ne_nil lexeme_ne]
  | joined row spelling _ ih =>
    obtain ⟨nonempty, begins, _⟩ := ih
    obtain ⟨lexeme_ne, _, ends⟩ := spelling.ink_ends
    refine ⟨by simp [nonempty], ?_, ?_⟩
    · rwa [List.head?_append_of_ne_nil _ nonempty]
    · rwa [List.getLast?_append_of_ne_nil _ lexeme_ne]

/-- A row before a woven text is woven with it. -/
theorem woven (row : Row text items joints last) {rest : List Char} {others : List Item}
    {intact : Bool} (later : Woven rest others intact)
    (noComment : last = ['/'] → ¬ MayOpenComment rest) :
    Woven (text ++ rest) (items ++ others)
      (joints.all (·.HoldsApart) && (decide (ReadsApart last rest) && intact)) := by
  induction row generalizing rest others intact with
  | single spelling => exact Woven.token spelling (spelling.opensComment_append noComment) later
  | @spaced text items joints last item row spelling ih =>
    have token := Woven.token spelling (spelling.opensComment_append noComment) later
    have whole := ih (Woven.blank (c := ' ') (by decide) token) fun _ => by simp [MayOpenComment]
    have apart : ReadsApart last (' ' :: (item.lexeme ++ rest)) :=
      readsApart_cons_of_isBlank last (by decide) _
    rw [decide_eq_true apart, Bool.true_and] at whole
    simpa using whole
  | @joined text items joints last item row spelling guarded ih =>
    obtain ⟨c, more, begins, _⟩ := spelling.exists_cons
    have token := Woven.token spelling (spelling.opensComment_append noComment) later
    have sameHead : (item.lexeme ++ rest).head? = item.lexeme.head? := by simp [begins]
    have whole := ih token fun slash => by
      rw [MayOpenComment, sameHead]
      exact guarded slash
    have apart := readsApart_congr last sameHead
    rw [decide_eq_decide.mpr apart] at whole
    simpa [Joint.HoldsApart, Bool.and_assoc] using whole

end Row

/-- A tear behind a text that does not end in a blank is not across its end. -/
theorem append_eq_torn {text more front back : List Char}
    (ends : text.getLast?.any isBlank = false)
    (split : text ++ more = front ++ '\n' :: '\x0c' :: back) :
    (∃ inside, text = front ++ '\n' :: '\x0c' :: inside) ∨
      ∃ behind, front = text ++ behind ∧ more = behind ++ '\n' :: '\x0c' :: back := by
  rcases List.append_eq_append_iff.mp split with ⟨behind, frontEq, moreEq⟩ | ⟨rest, textEq, restEq⟩
  · exact Or.inr ⟨behind, frontEq, moreEq⟩
  · cases rest with
    | nil => exact Or.inr ⟨[], by simpa using textEq.symm, by simpa using restEq.symm⟩
    | cons c rest =>
      obtain ⟨feed, restEq⟩ := List.cons.inj restEq
      cases rest with
      | nil =>
        rw [textEq, ← feed, List.getLast?_append] at ends
        contradiction
      | cons d inside =>
        rw [← feed, ← (List.cons.inj restEq).1] at textEq
        exact Or.inl ⟨inside, textEq⟩

namespace Row

variable {text : List Char} {items : List Item} {joints : List Joint} {last : List Char}

/-- A row that was torn at a form feed has lost a token. -/
theorem woven_torn (row : Row text items joints last) {front back : List Char}
    (split : text = front ++ '\n' :: '\x0c' :: back) (rest : List Char) (others : List Item) :
    Woven (front ++ '\n' :: '\n' :: rest) (items ++ others) false := by
  induction row generalizing front back others with
  | single spelling => exact spelling.woven_torn split rest others
  | @spaced text items joints last item row spelling ih =>
    rw [List.append_assoc]
    rcases append_eq_torn row.ink_ends.2.2 split with ⟨inside, textEq⟩ | ⟨behind, rfl, moreEq⟩
    · exact ih textEq _
    · cases behind with
      | nil => exact absurd (List.cons.inj moreEq).1 (by decide)
      | cons c behind =>
        obtain ⟨rfl, lexemeEq⟩ := List.cons.inj moreEq
        have torn := spelling.woven_torn lexemeEq rest others
        have whole := row.woven (Woven.blank (c := ' ') (by decide) torn) fun _ => by
          simp [MayOpenComment]
        simpa using whole
  | @joined text items joints last item row spelling guarded ih =>
    rw [List.append_assoc]
    rcases append_eq_torn row.ink_ends.2.2 split with ⟨inside, textEq⟩ | ⟨behind, rfl, lexemeEq⟩
    · exact ih textEq _
    · have torn := spelling.woven_torn lexemeEq rest others
      have sameHead : (behind ++ '\n' :: '\n' :: rest).head? = item.lexeme.head? := by
        simp [lexemeEq, List.head?_append]
      have whole := row.woven torn fun slash => by
        rw [MayOpenComment, sameHead]
        exact guarded slash
      simpa using whole

end Row

end CListing
