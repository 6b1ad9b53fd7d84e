import CListing.Proofs.Reader.ItemFeed
import CListing.Proofs.Reader.Shape

/-!
# Supplies of tokens

A feed that yields certain tokens next, with no directive between them. The feed of a source does
so wherever the tokens stand in the source: each of them is fetched with the spacing that its
spelling fixes, and is a spelling of its category, since only the last piece of a source can lack
its closing mark.
-/

namespace CListing

open Unicode Scan

/-- The spacing that the spelling of the token fixes. -/
def Item.spelled (item : Item) : Spacing :=
  ((Operator.named? item.lexeme).map (·.spacing)).getD .free

/-- The fetch yields the token as it is spelled, and no directive stands before it. -/
structure Fetch.Brings (fetch : Fetch) (item : Item) : Prop where
  alone : fetch.script = []
  yields : fetch.token.item = item
  spacing : fetch.spacing?.getD .free = item.spelled
  spelling : Spelling item.category item.lexeme

namespace Feed

/-- The feed yields the tokens, and then what the other feed yields. No directive stands before any
of them, nor before the token after them. -/
inductive Supplies : Feed → List Item → Feed → Prop
  | nil {feed : Feed} (alone : feed.fetch.1.script = []) : Supplies feed [] feed
  | cons {fetch : Fetch} {item : Item} {feed rest : Feed} {items : List Item}
      (brings : fetch.Brings item) (later : Supplies feed items rest) :
      Supplies (feed.cons fetch) (item :: items) rest

/-- The category of the next token. -/
def kind (feed : Feed) : Category :=
  feed.fetch.1.token.category

namespace Supplies

variable {feed rest : Feed} {item : Item} {items more : List Item}

theorem alone (supplies : feed.Supplies items rest) : feed.fetch.1.script = [] := by
  cases supplies with
  | nil alone => exact alone
  | cons brings _ => exact brings.alone

theorem kind_eq (supplies : feed.Supplies (item :: items) rest) : feed.kind = item.category := by
  cases supplies with
  | cons brings _ => exact congrArg Item.category brings.yields

theorem spelling (supplies : feed.Supplies items rest) {token : Item} (member : token ∈ items) :
    Spelling token.category token.lexeme := by
  induction supplies with
  | nil _ => contradiction
  | cons brings _ ih =>
    rcases List.mem_cons.mp member with rfl | later
    · exact brings.spelling
    · exact ih later

/-- A feed that supplies a token is not at the end. -/
theorem kind_ne_end_of_cons (supplies : feed.Supplies (item :: items) rest) :
    feed.kind ≠ .endOfFile := by
  rw [supplies.kind_eq]
  intro last
  have token := (supplies.spelling List.mem_cons_self).isToken
  rw [last] at token
  contradiction

theorem kind_ne_end_of_ne_nil (supplies : feed.Supplies items rest) (nonempty : items ≠ []) :
    feed.kind ≠ .endOfFile := by
  cases items with
  | nil => contradiction
  | cons item items => exact supplies.kind_ne_end_of_cons

/-- A feed is not at the end if a token stands behind those that it supplies. -/
theorem kind_ne_end (supplies : feed.Supplies items rest) (goesOn : rest.kind ≠ .endOfFile) :
    feed.kind ≠ .endOfFile := by
  by_cases nonempty : items = []
  · subst nonempty
    cases supplies with
    | nil _ => exact goesOn
  · exact supplies.kind_ne_end_of_ne_nil nonempty

/-- What is supplied comes in two parts. -/
theorem split (supplies : feed.Supplies (items ++ more) rest) :
    ∃ middle, feed.Supplies items middle ∧ middle.Supplies more rest := by
  induction items generalizing feed with
  | nil => exact ⟨feed, Supplies.nil supplies.alone, supplies⟩
  | cons item items ih =>
    cases supplies with
    | cons brings later =>
      obtain ⟨middle, first, second⟩ := ih later
      exact ⟨middle, Supplies.cons brings first, second⟩

/-- What is supplied comes in a first token and the others. -/
theorem cons_split (supplies : feed.Supplies (item :: items) rest) :
    ∃ next, feed.Supplies [item] next ∧ next.Supplies items rest :=
  split (show feed.Supplies ([item] ++ items) rest from supplies)

end Supplies

end Feed


/-! ## Feeds of sources -/

namespace Scan

theorem rest_of_open_literalTail {quote : Char} {text : List Char}
    (isOpen : (literalTail quote text).closed = false) : (literalTail quote text).rest = [] := by
  fun_induction literalTail quote text with
  | case1 => rfl
  | case2 c rest ih => exact ih isOpen
  | case3 => contradiction
  | case4 c rest _ _ ih => exact ih isOpen

/-- A token that lacks its closing mark goes up to the end of the text. -/
theorem rest_of_open {text : List Char} (noComment : (ofText text).category ≠ .comment)
    (isOpen : (ofText text).closed = false) : (ofText text).rest = [] := by
  cases text with
  | nil => rfl
  | cons c rest =>
    cases branch c rest with
    | wide mark =>
      rw [ofText_wide mark] at isOpen ⊢
      exact rest_of_open_literalTail isOpen
    | upper narrow upper =>
      rw [ofText_upper narrow upper] at isOpen
      contradiction
    | word lower letter =>
      rw [ofText_word lower letter] at isOpen
      contradiction
    | number lower noLetter starts =>
      obtain ⟨_, _, _, cut, _⟩ := numberFrom_spec [] (c :: rest)
      rw [ofText_number lower noLetter starts, numberCut, cut] at isOpen
      contradiction
    | quote mark =>
      rw [ofText_quote mark] at isOpen ⊢
      exact rest_of_open_literalTail isOpen
    | directive =>
      rw [ofText_directive, directive, ofCut, directiveCut, closed_directiveFrom] at isOpen
      contradiction
    | comment opens => exact absurd (category_of_opensComment opens) noComment
    | operator mark noNumber noComment =>
      rw [ofText_operator mark noNumber noComment, operator] at isOpen
      split at isOpen <;> contradiction

end Scan

namespace Reads

variable {text : List Char} {items : List Item} {closed : Bool}

/-- Before another item, all items have their closing marks. -/
theorem proper_dropLast (reads : Reads text items closed) :
    ∀ item ∈ items.dropLast, item.Proper := by
  induction reads with
  | ending _ => simp
  | comment _ _ ih => exact ih
  | @item text items closed notEnd noComment later ih =>
    have free := (Reads.item notEnd noComment later).free
    cases items with
    | nil => simp
    | cons second items =>
      have whole : (next text).closed = true := by
        by_contra isOpen
        rw [next, Bool.not_eq_true] at isOpen
        rw [next, rest_of_open noComment isOpen] at later
        exact absurd (later.unique (Reads.ending rfl)).1 (List.cons_ne_nil _ _)
      intro item member
      rcases List.mem_cons.mp member with rfl | others
      · exact (proper_item free notEnd noComment whole).1
      · exact ih item others

end Reads

namespace Feed

/-- Lines and notes do not matter to what a feed supplies. -/
theorem Supplies.of_bare {bareFeed last : Feed} {items : List Item}
    (supplies : bareFeed.Supplies items last) {feed : Feed} (same : feed.bare = bareFeed) :
    ∃ rest, feed.Supplies items rest ∧ rest.bare = last := by
  induction supplies generalizing feed with
  | nil alone =>
    rw [← same, fetch_bare] at alone
    exact ⟨feed, Supplies.nil alone, same⟩
  | @cons fetch _ _ _ _ brings _ ih =>
    rcases feed.cases_ahead with ⟨empty, _⟩ | ⟨first, others, rfl⟩
    · have shape : feed.ahead.map Fetch.bare = _ := congrArg Feed.ahead same
      rw [empty] at shape
      contradiction
    · have fetched := congrArg Feed.fetch same
      simp only [bare_cons, fetch_cons, Prod.mk.injEq] at fetched
      obtain ⟨rfl, later⟩ := fetched
      obtain ⟨rest, supplies, bare⟩ := ih later
      exact ⟨rest, Supplies.cons ⟨brings.alone, brings.yields, brings.spacing, brings.spelling⟩
        supplies, bare⟩

/-- The feed of tokens supplies them up to a token or the end. -/
theorem supplies_ofItems {items more : List Item}
    (tokens : ∀ item ∈ items, Spelling item.category item.lexeme)
    (stops : more.head?.any (·.isDirective) = false) :
    (ofItems (items ++ more)).Supplies items (ofItems more) := by
  induction items with
  | nil =>
    refine Supplies.nil ?_
    cases more with
    | nil => rfl
    | cons item more =>
      rw [List.nil_append, ofItems, if_neg (by simpa using stops)]
      rfl
  | cons item items ih =>
    have spelling := tokens item List.mem_cons_self
    have noDirective := Item.isDirective_of_isToken spelling.isToken
    rw [List.cons_append, ofItems, if_neg (by simp [noDirective])]
    exact Supplies.cons ⟨rfl, rfl, rfl, spelling⟩
      (ih fun other member => tokens other (List.mem_cons_of_mem _ member))

end Feed

/-- Wherever tokens stand at the head of a source before another token, the feed of the source
supplies them. -/
theorem Source.exists_supplies {source : Source} {items more : List Item} {next : Item}
    (found : source.items? = some (items ++ next :: more))
    (tokens : ∀ item ∈ items, item.isDirective = false) (noDirective : next.isDirective = false) :
    ∃ feed rest, Feed.ofReader? (Reader.ofSource source).1 = some feed ∧
      feed.Supplies items rest ∧ rest.kind = next.category := by
  obtain ⟨closed, reads⟩ := Source.items?_eq_some_iff.mp found
  obtain ⟨feed, feedFound, bare⟩ := Source.exists_feed found
  have spelled (item : Item) (member : item ∈ items) : Spelling item.category item.lexeme := by
    refine (reads.proper_dropLast item ?_).spelling (tokens item member)
    rw [List.dropLast_append_of_ne_nil (List.cons_ne_nil _ _)]
    exact List.mem_append_left _ member
  have supplies : (Feed.ofItems (items ++ next :: more)).Supplies items
      (Feed.ofItems (next :: more)) :=
    Feed.supplies_ofItems spelled (by simpa using noDirective)
  obtain ⟨rest, supplies, bare⟩ := supplies.of_bare bare
  refine ⟨feed, rest, feedFound, supplies, ?_⟩
  have kind : rest.bare.kind = rest.kind := by
    rw [Feed.kind, Feed.fetch_bare]
    rfl
  rw [← kind, bare, Feed.ofItems, if_neg (by simp [noDirective])]
  rfl

end CListing
