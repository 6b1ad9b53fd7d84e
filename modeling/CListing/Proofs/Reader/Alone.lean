import CListing.Proofs.Listing.Row
import CListing.Proofs.Reader.Shape
import CListing.Proofs.Source.ReadBack
import Mathlib.Algebra.GroupWithZero.Nat

/-!
# Lexemes read by themselves

The tokens of a text take up no more characters than the text has, and fewer if anything else stands
in it. So a text that is read as one token with the same lexeme is a spelling of that token, and two
lexemes that are read as their two tokens when nothing stands between them read apart and do not
begin a comment.
-/

namespace CListing

open Unicode Scan

namespace Source

theorem splitAfter_of_not_mem {text : List Char} (nonempty : text ≠ []) (plain : '\n' ∉ text) :
    splitAfter (· == '\n') text = [text] := by
  induction text with
  | nil => contradiction
  | cons c more ih =>
    rw [List.mem_cons, not_or] at plain
    have goesOn : (c == '\n') = false := by simpa using Ne.symm plain.1
    rw [splitAfter, if_neg (by simp [goesOn])]
    cases more with
    | nil => rfl
    | cons d others => rw [ih (by simp) plain.2]

/-- A line without a form feed is no heading, so it is read as it stands. -/
theorem text_ofText_of_plain {text : List Char} (noFeed : '\n' ∉ text) (noForm : '\x0c' ∉ text) :
    (ofText text).text = text := by
  by_cases empty : text = []
  · rw [empty]
    rfl
  · have noHeading : Heading.matches? text = false := by
      cases heading : Heading.matches? text with
      | false => rfl
      | true => exact absurd (List.mem_of_head? (Heading.head?_of_matches? heading)) noForm
    rw [Source.text, ofText, splitAfter_of_not_mem empty noFeed, List.flatMap_singleton,
      withoutHeading_of_not_matches? noHeading]

end Source

/-- The characters that the tokens among the items take up. -/
def tokenLength (items : List Item) : Nat :=
  ((items.filter (!·.isDirective)).map (·.lexeme.length)).sum

namespace Scan

/-- A piece that counts as a token takes up its lexeme. -/
theorem length_lexeme_next_le {text : List Char} (notEnd : (next text).category ≠ .endOfFile)
    (noComment : (next text).category ≠ .comment) (token : (next text).item.isDirective = false) :
    (next text).item.lexeme.length + (next text).rest.length ≤ text.length := by
  have shorter := (List.dropWhile_suffix isBlank (l := text)).length_le
  have whole := congrArg List.length (text_ofText (text.dropWhile isBlank))
  have isToken := isToken_of_category notEnd noComment (of_decide_eq_false token)
  have same : (next text).item.lexeme.length = (next text).extent.length :=
    congrArg List.length isToken.lexeme
  rw [Scan.text, List.length_append, ← next] at whole
  omega

end Scan

namespace Reads

variable {text : List Char} {items : List Item} {closed : Bool}

/-- The tokens of a text take up no more characters than there are. -/
theorem tokenLength_le (reads : Reads text items closed) : tokenLength items ≤ text.length := by
  induction reads with
  | ending _ => exact Nat.zero_le _
  | comment _ _ ih => exact ih.trans (length_rest_next_le _)
  | @item text items closed notEnd noComment _ ih =>
    cases directive : (next text).item.isDirective with
    | true =>
      rw [tokenLength, List.filter_cons_of_neg (by simp [directive])]
      exact ih.trans (length_rest_next_le _)
    | false =>
      have room := length_lexeme_next_le notEnd noComment directive
      rw [tokenLength, List.filter_cons_of_pos (by simp [directive]), List.map_cons, List.sum_cons]
      exact (Nat.add_le_add_left ih _).trans room

/-- If the tokens of a text take up all of it, then it begins with a token, unless it is empty. -/
theorem isToken_next_of_tokenLength (reads : Reads text items closed)
    (full : text.length ≤ tokenLength items) (nonempty : text ≠ []) :
    (next text).category ≠ .endOfFile ∧ (next text).category ≠ .comment ∧
      (next text).item.isDirective = false := by
  have free := reads.free
  cases reads with
  | ending _ => exact absurd (List.length_eq_zero_iff.mp (Nat.le_zero.mp full)) nonempty
  | comment category later =>
    have shorter := length_rest_next_lt free (by simp [category])
    have room := later.tokenLength_le
    omega
  | @item _ others _ notEnd noComment later =>
    refine ⟨notEnd, noComment, ?_⟩
    cases directive : (next text).item.isDirective with
    | false => rfl
    | true =>
      have shorter := length_rest_next_lt free notEnd
      have room := later.tokenLength_le
      rw [tokenLength, List.filter_cons_of_neg (by simp [directive])] at full
      rw [tokenLength] at room
      omega

end Reads

namespace Item

/-- Read by itself, the lexeme of the token is this token and nothing else; it is no open literal
and has neither a line feed nor a form feed in it. -/
structure StandsAlone (token : Item) : Prop where
  tokens : (Source.ofText token.lexeme).tokens? = some [token]
  closed : (Scan.next token.lexeme).closed = true
  noFeed : '\n' ∉ token.lexeme
  noForm : '\x0c' ∉ token.lexeme

instance (token : Item) : Decidable token.StandsAlone :=
  decidable_of_iff ((Source.ofText token.lexeme).tokens? = some [token] ∧
      (Scan.next token.lexeme).closed = true ∧ '\n' ∉ token.lexeme ∧ '\x0c' ∉ token.lexeme)
    ⟨fun ⟨tokens, closed, noFeed, noForm⟩ => ⟨tokens, closed, noFeed, noForm⟩,
      fun alone => ⟨alone.tokens, alone.closed, alone.noFeed, alone.noForm⟩⟩

/-- Written without a blank between them, the lexemes are read as the two tokens. -/
def StandTogether (first second : Item) : Prop :=
  (Source.ofText (first.lexeme ++ second.lexeme)).tokens? = some [first, second]

instance (first second : Item) : Decidable (first.StandTogether second) :=
  inferInstanceAs (Decidable (_ = _))

/-- What is read as tokens reads as items that are these tokens and directives. -/
theorem exists_reads_of_tokens? {text : List Char} {tokens : List Item} (noFeed : '\n' ∉ text)
    (noForm : '\x0c' ∉ text) (found : (Source.ofText text).tokens? = some tokens) :
    ∃ items closed, Reads text items closed ∧ items.filter (!·.isDirective) = tokens := by
  obtain ⟨items, read, rfl⟩ := Option.map_eq_some_iff.mp found
  obtain ⟨closed, reads⟩ := Source.items?_eq_some_iff.mp read
  rw [Source.text_ofText_of_plain noFeed noForm] at reads
  exact ⟨items, closed, reads, rfl⟩

namespace StandsAlone

variable {token : Item}

/-- A token that stands alone is spelled by its lexeme. -/
theorem spelling (alone : token.StandsAlone) : Spelling token.category token.lexeme := by
  obtain ⟨items, closed, reads, tokens⟩ :=
    exists_reads_of_tokens? alone.noFeed alone.noForm alone.tokens
  have full : token.lexeme.length ≤ tokenLength items := by simp [tokenLength, tokens]
  have free := reads.free
  have nonempty : token.lexeme ≠ [] := by
    intro empty
    rw [empty] at reads
    rw [(reads.unique (Reads.ending rfl)).1] at tokens
    contradiction
  obtain ⟨notEnd, noComment, isToken⟩ := reads.isToken_next_of_tokenLength full nonempty
  cases reads with
  | ending category => contradiction
  | comment category _ => contradiction
  | item _ _ _ =>
    rw [List.filter_cons_of_pos (by simp [isToken]), List.cons.injEq] at tokens
    have proper := (proper_item free notEnd noComment alone.closed).1
    have spelling := proper.spelling isToken
    rwa [tokens.1] at spelling

theorem isDirective_eq_false (alone : token.StandsAlone) : token.isDirective = false :=
  isDirective_of_isToken alone.spelling.isToken

end StandsAlone

namespace StandTogether

variable {first second : Item}

/-- Neighbours that stand together do not begin a comment. -/
theorem opensComment_eq_false (together : first.StandTogether second) (alone : first.StandsAlone)
    (next_alone : second.StandsAlone) : opensComment (first.lexeme ++ second.lexeme) = false := by
  obtain ⟨items, closed, reads, tokens⟩ := exists_reads_of_tokens?
    (by simp [alone.noFeed, next_alone.noFeed]) (by simp [alone.noForm, next_alone.noForm]) together
  have full : (first.lexeme ++ second.lexeme).length ≤ tokenLength items := by
    simp [tokenLength, tokens]
  obtain ⟨c, more, begins, ink, _⟩ := alone.spelling.exists_cons
  obtain ⟨_, noComment, _⟩ := reads.isToken_next_of_tokenLength full (by simp [begins])
  cases opens : opensComment (first.lexeme ++ second.lexeme) with
  | false => rfl
  | true =>
    have comment := category_of_opensComment opens
    rw [begins, List.cons_append] at comment noComment
    rw [next_cons_of_ink ink] at noComment
    exact absurd comment noComment

/-- Neighbours that stand together read apart. -/
theorem readsApart (together : first.StandTogether second) (alone : first.StandsAlone)
    (next_alone : second.StandsAlone) : ReadsApart first.lexeme second.lexeme := by
  obtain ⟨items, closed, reads, tokens⟩ := exists_reads_of_tokens?
    (by simp [alone.noFeed, next_alone.noFeed]) (by simp [alone.noForm, next_alone.noForm]) together
  have noComment := together.opensComment_eq_false alone next_alone
  have later := @Woven.token second [] [] true next_alone.spelling
    (next_alone.spelling.opensComment_append fun _ => by simp [MayOpenComment]) Woven.nil
  rw [List.append_nil] at later
  have woven := Woven.token alone.spelling noComment later
  have tokensOnly : [first, second].filter (!·.isDirective) = [first, second] := by
    simp [alone.isDirective_eq_false, next_alone.isDirective_eq_false]
  have intact := woven.intact_of_reads reads (tokens.trans tokensOnly.symm)
  rw [Bool.and_eq_true, decide_eq_true_iff] at intact
  exact intact.1

/-- Only a slash before a slash or an asterisk would begin a comment. -/
theorem not_mayOpenComment (together : first.StandTogether second) (alone : first.StandsAlone)
    (next_alone : second.StandsAlone) (slash : first.lexeme = ['/']) :
    ¬ MayOpenComment second.lexeme := by
  have noComment := together.opensComment_eq_false alone next_alone
  intro opens
  rw [slash, List.singleton_append, opensComment_cons_iff.mpr ⟨rfl, opens⟩] at noComment
  contradiction

end StandTogether

end Item

end CListing
