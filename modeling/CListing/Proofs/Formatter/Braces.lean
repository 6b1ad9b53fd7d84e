import CListing.Proofs.Formatter.Dispatch
import CListing.Proofs.Formatter.Invariant

/-!
# Braces ahead

A formatter has tokens ahead: the one that it looks at, one that may be put back, and those of its
feed. Whatever reads a part of them is judged by the braces among the tokens that it takes. How many
of them stay open adds up along the parts, so that the whole leaves none open exactly if no part
does. The only exception is a part that comes to the end of the source inside braces.
-/

namespace CListing

/-- How many braces stand open after a token, if so many did before it. There is no answer if the
token closes one and none is open. -/
def Category.braces? : Category → Nat → Option Nat
  | .leftBrace, opened => some (opened + 1)
  | .rightBrace, 0 => none
  | .rightBrace, outer + 1 => some outer
  | _, opened => some opened

/-- How many braces stand open after the tokens, if so many did before them. -/
def openBraces? : Nat → List Token → Option Nat
  | opened, [] => some opened
  | opened, token :: tokens =>
    (token.category.braces? opened).bind fun next => openBraces? next tokens

/-- The opening braces among the tokens, less the closing ones. -/
def braceSurplus (tokens : List Token) : Int :=
  tokens.countP (·.category = .leftBrace) - tokens.countP (·.category = .rightBrace)

/-- The category is neither a brace nor the end of the source. -/
def Category.isPlain : Category → Bool
  | .leftBrace | .rightBrace | .endOfFile => false
  | _ => true

theorem Category.isPlain_of_ne {category : Category} (noOpen : category ≠ .leftBrace)
    (noClose : category ≠ .rightBrace) (notEnd : category ≠ .endOfFile) :
    category.isPlain = true := by
  cases category <;> first | rfl | contradiction

theorem Category.braces?_of_isPlain {category : Category} (plain : category.isPlain = true)
    (opened : Nat) : category.braces? opened = some opened := by
  cases category <;> first | rfl | contradiction

/-- Inside more braces as many more are open. -/
theorem Category.braces?_add {category : Category} {opened left : Nat}
    (found : category.braces? opened = some left) (outer : Nat) :
    category.braces? (opened + outer) = some (left + outer) := by
  cases category with
  | leftBrace =>
    obtain rfl := Option.some.inj found
    exact congrArg some (Nat.add_right_comm _ _ _)
  | rightBrace =>
    cases opened with
    | zero => contradiction
    | succ opened =>
      obtain rfl := Option.some.inj found
      rw [Nat.add_right_comm]
      rfl
  | _ => exact congrArg (fun opened => some (opened + outer)) (Option.some.inj found)

/-- What a token adds to the open braces. -/
theorem Category.braces?_surplus {category : Category} {opened left : Nat}
    (found : category.braces? opened = some left) :
    opened + (if category = .leftBrace then 1 else 0) =
      left + if category = .rightBrace then 1 else 0 := by
  cases category with
  | leftBrace => exact Option.some.inj found
  | rightBrace =>
    cases opened with
    | zero => contradiction
    | succ opened => exact congrArg (· + 1) (Option.some.inj found)
  | _ => exact Option.some.inj found

section Tokens

variable {tokens : List Token} {opened left : Nat}

theorem openBraces?_append (opened : Nat) (first second : List Token) :
    openBraces? opened (first ++ second) =
      (openBraces? opened first).bind fun between => openBraces? between second := by
  induction first generalizing opened with
  | nil => rfl
  | cons token first ih =>
    rw [List.cons_append, openBraces?, openBraces?, Option.bind_assoc]
    exact Option.bind_congr fun next _ => ih next

theorem openBraces?_add (found : openBraces? opened tokens = some left) (outer : Nat) :
    openBraces? (opened + outer) tokens = some (left + outer) := by
  induction tokens generalizing opened with
  | nil => exact congrArg (fun opened => some (opened + outer)) (Option.some.inj found)
  | cons token tokens ih =>
    obtain ⟨next, first, later⟩ := Option.bind_eq_some_iff.mp found
    rw [openBraces?, Category.braces?_add first, Option.bind_some, ih later]

theorem braceSurplus_append (first second : List Token) :
    braceSurplus (first ++ second) = braceSurplus first + braceSurplus second := by
  simp only [braceSurplus, List.countP_append]
  omega

/-- The surplus of braces is what stays open beyond what was open before. -/
theorem braceSurplus_of_openBraces? (found : openBraces? opened tokens = some left) :
    opened + braceSurplus tokens = left := by
  induction tokens generalizing opened with
  | nil =>
    obtain rfl := Option.some.inj found
    exact Int.add_zero _
  | cons token tokens ih =>
    obtain ⟨next, first, later⟩ := Option.bind_eq_some_iff.mp found
    have rest := ih later
    have step := Category.braces?_surplus first
    simp only [braceSurplus, List.countP_cons, decide_eq_true_eq] at rest ⊢
    omega

/-- Two beginnings of the same tokens up to a closing brace, the first of which leaves no brace
open: the second one is no longer, and as long only if it leaves none open either. -/
theorem ends_of_openBraces? {body inner after rest : List Token} {closing other : Token}
    (same : body ++ closing :: after = inner ++ other :: rest)
    (closes : closing.category = .rightBrace) (closesToo : other.category = .rightBrace)
    (balanced : openBraces? 0 body = some 0) (found : openBraces? 0 inner = some left) :
    after <:+ rest ∧ (rest = after ↔ left = 0) := by
  have tooMany (tokens : List Token) (category : closing.category = .rightBrace) :
      openBraces? 0 (closing :: tokens) = none := by
    rw [openBraces?, category]
    rfl
  have tooManyToo (tokens : List Token) : openBraces? 0 (other :: tokens) = none := by
    rw [openBraces?, closesToo]
    rfl
  rcases List.append_eq_append_iff.mp same with ⟨missed, rfl, split⟩ | ⟨missed, rfl, split⟩
  · cases missed with
    | nil =>
      obtain ⟨rfl, rfl⟩ := List.cons.inj split
      rw [List.append_nil, balanced] at found
      obtain rfl := Option.some.inj found
      exact ⟨List.suffix_refl _, by simp⟩
    | cons token missed =>
      obtain ⟨rfl, _⟩ := List.cons.inj split
      rw [openBraces?_append, balanced, Option.bind_some, tooMany _ closes] at found
      contradiction
  · cases missed with
    | nil =>
      obtain ⟨rfl, rfl⟩ := List.cons.inj split
      rw [List.append_nil, found] at balanced
      obtain rfl := Option.some.inj balanced
      exact ⟨List.suffix_refl _, by simp⟩
    | cons token missed =>
      rw [List.cons_append] at split
      obtain ⟨rfl, rfl⟩ := List.cons.inj split
      refine ⟨⟨missed ++ [closing], List.append_assoc _ _ _⟩, ?_⟩
      constructor
      · intro same
        have lengths := congrArg List.length same
        simp only [List.length_append, List.length_cons] at lengths
        omega
      · rintro rfl
        rw [openBraces?_append, found, Option.bind_some, tooManyToo] at balanced
        contradiction

end Tokens

namespace Formatter

/-- The tokens before the end of the source, from the one that is looked at. -/
def ahead (formatter : Formatter Feed) : List Token :=
  (formatter.token :: (formatter.cursor.lookahead?.toList ++
    formatter.cursor.source.ahead.map (·.token))).takeWhile (·.category ≠ .endOfFile)

section Steps

variable (f : Formatter Feed)

@[simp]
theorem ahead_markExpression (previous : Category) : (f.markExpression previous).ahead = f.ahead :=
  rfl

@[simp]
theorem ahead_markCall (previous : Category) : (f.markCall previous).ahead = f.ahead := by
  unfold markCall
  split <;> rfl

end Steps

variable {f g h : Formatter Feed}

theorem ahead_of_end (last : f.kind = .endOfFile) : f.ahead = [] := by
  rw [kind] at last
  rw [ahead, List.takeWhile_cons_of_neg (by simp [last])]

/-- An advance before the end takes the token that is looked at. -/
theorem ahead_advance (notEnd : f.kind ≠ .endOfFile) : f.ahead = f.token :: f.advance.ahead := by
  rw [kind] at notEnd
  rw [ahead, List.takeWhile_cons_of_pos (by simp [notEnd])]
  cases slot : f.cursor.lookahead? with
  | some token =>
    rw [advance_of_put slot]
    rfl
  | none =>
    rw [advance_of_free slot]
    rcases f.cursor.source.cases_ahead with ⟨empty, _⟩ | ⟨first, rest, split⟩
    · rw [Feed.fetch_of_ahead_eq_nil empty, empty, ahead_of_end rfl]
      rfl
    · rw [split]
      rfl

/-- A name that turns out to be no label is ahead again. -/
theorem ahead_lookAgain (name : f.kind.isName = true) :
    (f.advance.putBack.lookAt f.token).ahead = f.ahead := by
  have notEnd : f.kind ≠ .endOfFile := by
    intro last
    rw [last] at name
    contradiction
  have again : (f.advance.putBack.lookAt f.token).ahead =
      f.token :: (f.advance.putBack.lookAt f.token).advance.ahead := ahead_advance notEnd
  rw [again, ahead_advance notEnd, advance_lookAt_putBack]

/-! ## Parts -/

/-- From one state to the other tokens are taken, with which the number of open braces changes as
given and never falls below zero. -/
def Takes (opened : Nat) (f : Formatter Feed) (left : Nat) (g : Formatter Feed) : Prop :=
  ∃ taken, f.ahead = taken ++ g.ahead ∧ openBraces? opened taken = some left

namespace Takes

variable {opened between left : Nat}

theorem nothing (same : f.ahead = g.ahead) (opened : Nat) : Takes opened f opened g :=
  ⟨[], same, rfl⟩

theorem trans (first : Takes opened f between g) (second : Takes between g left h) :
    Takes opened f left h := by
  obtain ⟨taken, split, found⟩ := first
  obtain ⟨more, splitMore, foundMore⟩ := second
  refine ⟨taken ++ more, ?_, ?_⟩
  · rw [split, splitMore, List.append_assoc]
  · rw [openBraces?_append, found, Option.bind_some, foundMore]

/-- Inside more braces the same tokens are taken. -/
theorem deeper (takes : Takes opened f left g) (outer : Nat) :
    Takes (opened + outer) f (left + outer) g := by
  obtain ⟨taken, split, found⟩ := takes
  exact ⟨taken, split, openBraces?_add found outer⟩

/-- Where no token is ahead, none is taken. -/
theorem of_ahead_eq_nil (takes : Takes opened f left g) (ends : f.ahead = []) :
    g.ahead = [] ∧ left = opened := by
  obtain ⟨taken, split, found⟩ := takes
  rw [ends] at split
  obtain ⟨rfl, rest⟩ := List.append_eq_nil_iff.mp split.symm
  exact ⟨rest, (Option.some.inj found).symm⟩

/-- The surplus of braces among the tokens taken is what they leave open. -/
theorem surplus (takes : Takes opened f left g) :
    opened + braceSurplus f.ahead = left + braceSurplus g.ahead := by
  obtain ⟨taken, split, found⟩ := takes
  have open_left := braceSurplus_of_openBraces? found
  rw [split, braceSurplus_append]
  omega

theorem endLine (takes : Takes opened f left g) : Takes opened f left g.endLine :=
  takes

theorem advance (notEnd : f.kind ≠ .endOfFile) (found : f.kind.braces? opened = some left) :
    Takes opened f left f.advance := by
  refine ⟨[f.token], ahead_advance notEnd, ?_⟩
  rw [openBraces?, show f.token.category.braces? opened = some left from found]
  rfl

theorem advance_plain (plain : f.kind.isPlain = true) (opened : Nat) :
    Takes opened f opened f.advance := by
  refine Takes.advance ?_ (Category.braces?_of_isPlain plain opened)
  intro last
  rw [last] at plain
  contradiction

theorem advance_leftBrace (opens : f.kind = .leftBrace) (opened : Nat) :
    Takes opened f (opened + 1) f.advance :=
  Takes.advance (by simp [opens]) (by rw [opens]; rfl)

theorem advance_rightBrace (closes : f.kind = .rightBrace) (opened : Nat) :
    Takes (opened + 1) f opened f.advance :=
  Takes.advance (by simp [closes]) (by rw [closes]; rfl)

theorem expect {required : Category} (plain : required.isPlain = true) (opened : Nat) :
    Takes opened f opened (f.expect required) := by
  unfold Formatter.expect
  split
  · rename_i found
    exact Takes.advance_plain (found ▸ plain) opened
  · exact Takes.nothing rfl opened

end Takes

/-- Between the two states tokens are taken. They leave no brace open exactly if `kept`, unless
they are all there are and end inside braces. -/
def Nests (opened : Nat) (kept : Prop) (f g : Formatter Feed) : Prop :=
  ∃ left, Takes opened f left g ∧ ((left = 0 ↔ kept) ∨ 0 < left ∧ g.ahead = [])

namespace Nests

variable {opened between : Nat} {kept others : Prop}

theorem congr (nests : Nests opened kept f g) (same : kept ↔ others) : Nests opened others f g := by
  rwa [← propext same]

theorem of_takes (takes : Takes 0 f 0 g) (all : kept) : Nests 0 kept f g :=
  ⟨0, takes, Or.inl (iff_of_true rfl all)⟩

theorem after (takes : Takes opened f between g) (nests : Nests between kept g h) :
    Nests opened kept f h := by
  obtain ⟨left, inside, balance⟩ := nests
  exact ⟨left, takes.trans inside, balance⟩

/-- A part that begins with no brace open, and another one. -/
theorem append (first : Nests 0 kept f g) (second : Nests opened others g h) :
    Nests opened (kept ∧ others) f h := by
  obtain ⟨lost, takes, balance⟩ := first
  obtain ⟨left, takesMore, balanceMore⟩ := second
  have deep := takes.deeper opened
  rw [Nat.zero_add, Nat.add_comm] at deep
  refine ⟨left + lost, deep.trans (takesMore.deeper lost), ?_⟩
  rcases balance with all | ⟨some_lost, ends⟩
  · rcases balanceMore with more | ⟨some_left, ends⟩
    · left
      rw [← all, ← more, Nat.add_eq_zero_iff, and_comm]
    · exact Or.inr ⟨Nat.add_pos_left some_left _, ends⟩
  · exact Or.inr ⟨Nat.add_pos_right _ some_lost, (takesMore.of_ahead_eq_nil ends).1⟩

theorem before (nests : Nests opened kept f g) (takes : Takes 0 g 0 h) : Nests opened kept f h := by
  obtain ⟨left, inside, balance⟩ := nests
  have deep := takes.deeper left
  rw [Nat.zero_add] at deep
  exact ⟨left, inside.trans deep,
    balance.imp_right (And.imp_right fun ends => (takes.of_ahead_eq_nil ends).1)⟩

theorem endLine (nests : Nests opened kept f g) : Nests opened kept f g.endLine :=
  nests

theorem unindent (nests : Nests opened kept f g) : Nests opened kept f g.unindent :=
  nests

theorem ofIndent (nests : Nests opened kept f.indent g) : Nests opened kept f g :=
  nests

/-- Inside a pair of braces. -/
theorem enclosed (enters : Takes 0 f 1 g) (inside : Nests 0 kept g h) (ends : h.atBlockEnd = true) :
    Nests 0 kept f (h.expect .rightBrace) := by
  obtain ⟨left, takes, balance⟩ := inside
  have deep := enters.trans (takes.deeper 1)
  rw [atBlockEnd, Bool.or_eq_true, decide_eq_true_iff, decide_eq_true_iff] at ends
  rcases ends with closes | last
  · have some_ahead : h.ahead ≠ [] := by
      rw [ahead_advance (by simp [closes])]
      exact List.cons_ne_nil _ _
    rw [Formatter.expect, if_pos closes]
    refine ⟨left, deep.trans (Takes.advance_rightBrace closes left), ?_⟩
    exact Or.inl (balance.resolve_right fun cut => some_ahead cut.2)
  · rw [Formatter.expect, if_neg (by simp [last])]
    exact ⟨left + 1, deep, Or.inr ⟨Nat.succ_pos _, ahead_of_end last⟩⟩

/-- A loop over parts leaves no brace open exactly if no round does. -/
theorem whileLoop {condition : Formatter Feed → Bool} {step loop : Formatter Feed → Formatter Feed}
    (consuming : Round.Consuming remaining (whileRound condition step) loop)
    {keeps : Formatter Feed → Prop}
    (each : ∀ later, Round.Reaches (whileRound condition step) f later → condition later = true →
      Nests 0 (keeps later) later (step later)) :
    Nests 0 (∀ later, Round.Reaches (whileRound condition step) f later →
      condition later = true → keeps later) f (loop f) := by
  have finishes := consuming.finishes f
  generalize loop f = result at finishes
  induction finishes with
  | @done f result leaves =>
    have stops : condition f = false := by
      by_contra goes
      rw [Bool.not_eq_false] at goes
      rw [whileRound, if_pos goes] at leaves
      contradiction
    rw [whileRound, if_neg (by simp [stops]), Round.done.injEq] at leaves
    subst leaves
    refine .of_takes (.nothing rfl 0) ?_
    intro later reaches goes
    rw [reaches_of_not stops reaches, stops] at goes
    contradiction
  | @more f next result goes after ih =>
    have holds : condition f = true := by
      by_contra stops
      rw [whileRound, if_neg stops] at goes
      contradiction
    have step_eq : step f = next := by
      rw [whileRound, if_pos holds] at goes
      exact Round.more.inj goes
    have first := each f (.here f) holds
    rw [step_eq] at first
    have others := ih fun later reaches => each later (.more goes reaches)
    refine (first.append others).congr ⟨?_, ?_⟩
    · rintro ⟨kept, keptMore⟩ later reaches continues
      cases reaches with
      | here => exact kept
      | more goesToo reachesMore =>
        obtain rfl := Round.more.inj (goes.symm.trans goesToo)
        exact keptMore later reachesMore continues
    · intro all
      exact ⟨all f (.here f) holds, fun later reaches => all later (.more goes reaches)⟩

end Nests

end Formatter

end CListing
