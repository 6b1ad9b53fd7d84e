import CListing.Proofs.Formatter.Guard
import CListing.Proofs.Reader.FeedNotes
import CListing.Proofs.Reader.Supply

/-!
# Tokens that come with a feed

The tokens of a feed have characters. None but the last ends in a blank, because only the last piece
of a text can lack its closing mark.
-/

namespace CListing

open Unicode

namespace Feed

/-- The tokens of the feed. -/
def tokens (feed : Feed) : List Token :=
  feed.ahead.map (·.token)

/-- The tokens of the feed have characters, and before another token they do not end in a blank. -/
structure Inked (feed : Feed) : Prop where
  nonempty : ∀ token ∈ feed.tokens, token.lexeme ≠ []
  ends : ∀ token ∈ feed.tokens.dropLast, token.lexeme.getLast?.any isBlank = false

variable {feed : Feed}

theorem tokens_precede (script : List Command) (notes : List Note) (feed : Feed) :
    (feed.precede script notes).tokens = feed.tokens := by
  obtain ⟨ahead, size, lastLine, closing, closingNotes, size_eq⟩ := feed
  cases ahead <;> rfl

/-- Places and notes do not matter to the tokens. -/
theorem inked_of_bare (inked : feed.bare.Inked) : feed.Inked := by
  have tokens : feed.bare.tokens = feed.tokens.map Token.bare := by
    simp [Feed.tokens, bare, Fetch.bare]
  obtain ⟨nonempty, ends⟩ := inked
  rw [tokens] at nonempty ends
  rw [← List.map_dropLast] at ends
  exact ⟨fun token member => nonempty token.bare (List.mem_map_of_mem member),
    fun token member => ends token.bare (List.mem_map_of_mem member)⟩

/-- A token in front of others is not the last one. -/
theorem dropLast_tokens_cons (fetch : Fetch) (filled : feed.tokens ≠ []) :
    (feed.cons fetch).tokens.dropLast = fetch.token :: feed.tokens.dropLast :=
  List.dropLast_cons_of_ne_nil filled

/-- Another token comes first. -/
theorem Inked.cons (inked : feed.Inked) {fetch : Fetch} (nonempty : fetch.token.lexeme ≠ [])
    (ends : feed.tokens ≠ [] → fetch.token.lexeme.getLast?.any isBlank = false) :
    (feed.cons fetch).Inked := by
  refine ⟨?_, ?_⟩
  · intro token member
    rcases List.mem_cons.mp member with rfl | inside
    · exact nonempty
    · exact inked.nonempty token inside
  · intro token member
    cases later : feed.tokens with
    | nil =>
      have alone : (feed.cons fetch).tokens = [fetch.token] := congrArg (fetch.token :: ·) later
      rw [alone] at member
      contradiction
    | cons second rest =>
      have filled : feed.tokens ≠ [] := by simp [later]
      rw [dropLast_tokens_cons fetch filled] at member
      rcases List.mem_cons.mp member with rfl | inside
      · exact ends filled
      · exact inked.ends token inside

/-- The tokens of items of which only the last may lack its closing mark. -/
theorem inked_ofItems {items : List Item} (sound : ∀ item ∈ items, item.Sound)
    (proper : ∀ item ∈ items.dropLast, item.Proper) : (ofItems items).Inked := by
  induction items with
  | nil => exact ⟨by simp [tokens, ofItems], by simp [tokens, ofItems]⟩
  | cons item items ih =>
    have later : (ofItems items).Inked := by
      refine ih (fun other member => sound other (List.mem_cons_of_mem _ member)) ?_
      intro other member
      cases items with
      | nil => contradiction
      | cons second items => exact proper other (List.mem_cons_of_mem _ member)
    rw [ofItems]
    split
    · exact ⟨by rw [tokens_precede]; exact later.nonempty, by rw [tokens_precede]; exact later.ends⟩
    · rename_i token
      have noDirective : item.isDirective = false := by simpa using token
      refine later.cons ((sound item List.mem_cons_self).nonempty noDirective) fun filled => ?_
      cases items with
      | nil => exact absurd rfl filled
      | cons second items =>
        exact ((proper item List.mem_cons_self).spelling noDirective).ink_ends.2.2

/-- The tokens that a reader finds. -/
theorem inked_ofReader {reader : Reader} (found : ofReader? reader = some feed) : feed.Inked := by
  obtain ⟨items, _, reads, bare, _⟩ := exists_items found
  apply inked_of_bare
  rw [bare]
  exact inked_ofItems reads.sound reads.proper_dropLast

/-- Behind a token that is fetched the others are left. -/
theorem Inked.fetch (inked : feed.Inked) :
    feed.fetch.2.Inked ∧
      (feed.fetch.1.token.category ≠ .endOfFile → feed.fetch.1.token.lexeme ≠ []) ∧
      (feed.fetch.2.ahead ≠ [] → feed.fetch.1.token.lexeme.getLast?.any isBlank = false) := by
  rcases feed.cases_ahead with ⟨empty, _⟩ | ⟨first, rest, rfl⟩
  · rw [fetch_of_ahead_eq_nil empty]
    exact ⟨⟨inked.nonempty, inked.ends⟩, fun notEnd => absurd rfl notEnd,
      fun filled => absurd empty filled⟩
  · rw [fetch_cons]
    obtain ⟨nonempty, ends⟩ := inked
    refine ⟨⟨fun token member => nonempty token (List.mem_cons_of_mem _ member), ?_⟩,
      fun _ => nonempty first.token List.mem_cons_self, fun filled => ?_⟩
    · intro token member
      have filled : rest.tokens ≠ [] := by
        intro none
        rw [none] at member
        contradiction
      refine ends token ?_
      rw [dropLast_tokens_cons first filled]
      exact List.mem_cons_of_mem _ member
    · refine ends first.token ?_
      rw [dropLast_tokens_cons first (by simpa [tokens] using filled)]
      exact List.mem_cons_self

end Feed

end CListing
