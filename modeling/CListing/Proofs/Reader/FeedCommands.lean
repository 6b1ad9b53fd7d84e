import CListing.Proofs.Reader.ItemFeed

/-!
# Commands that come with a feed

A feed of items brings along nothing but the lines of its directives and the ends of the lines
pending before them. So a condition that holds of those holds of all that is fetched.
-/

namespace CListing

namespace Feed

/-- All commands that the feed brings along satisfy the condition. -/
def AllCommands (p : Command → Bool) (feed : Feed) : Prop :=
  (∀ fetch ∈ feed.ahead, ∀ command ∈ fetch.script, p command = true) ∧
    ∀ command ∈ feed.closing, p command = true

variable {p : Command → Bool} {feed : Feed}

theorem AllCommands.fetch (all : feed.AllCommands p) (ends : p (.endLine false) = true) :
    (∀ command ∈ feed.fetch.1.commands, p command = true) ∧ feed.fetch.2.AllCommands p := by
  have ended {fetch : Fetch} (script : ∀ command ∈ fetch.script, p command = true) :
      ∀ command ∈ fetch.commands, p command = true := by
    intro command member
    rcases List.mem_append.mp member with own | last
    · exact script command own
    · split at last
      · rwa [List.mem_singleton.mp last]
      · contradiction
  rcases feed.cases_ahead with ⟨empty, _⟩ | ⟨first, rest, rfl⟩
  · rw [fetch_of_ahead_eq_nil empty]
    exact ⟨ended all.2, all.1, by simp [fetchEnd]⟩
  · rw [fetch_cons]
    exact ⟨ended (all.1 first List.mem_cons_self),
      fun fetch member => all.1 fetch (List.mem_cons_of_mem _ member), all.2⟩

theorem AllCommands.precede (all : feed.AllCommands p) {script : List Command}
    (own : ∀ command ∈ script, p command = true) (notes : List Note) :
    (feed.precede script notes).AllCommands p := by
  obtain ⟨ahead, size, lastLine, closing, closingNotes, size_eq⟩ := feed
  obtain ⟨inside, last⟩ := all
  have added {later : List Command} (all : ∀ command ∈ later, p command = true) :
      ∀ command ∈ script ++ later, p command = true := by
    intro command member
    rcases List.mem_append.mp member with first | second
    · exact own command first
    · exact all command second
  cases ahead with
  | nil => exact ⟨by simp [Feed.precede], added last⟩
  | cons first rest =>
    refine ⟨?_, last⟩
    intro fetch member
    rcases List.mem_cons.mp member with rfl | later
    · exact added (inside first List.mem_cons_self)
    · exact inside fetch (List.mem_cons_of_mem _ later)

/-- The feed of items brings along the lines of directives only. -/
theorem allCommands_ofItems (ends : p (.endLine false) = true)
    (directive : ∀ text, p (.directive text) = true) (items : List Item) :
    (ofItems items).AllCommands p := by
  induction items with
  | nil => exact ⟨by simp [ofItems], by simp [ofItems]⟩
  | cons item items ih =>
    rw [ofItems]
    split
    · refine ih.precede ?_ []
      intro command member
      rcases List.mem_cons.mp member with rfl | line
      · exact ends
      · obtain ⟨text, _, rfl⟩ := List.mem_map.mp line
        exact directive text
    · refine ⟨?_, ih.2⟩
      intro fetch member
      rcases List.mem_cons.mp member with rfl | later
      · simp
      · exact ih.1 fetch later

end Feed

end CListing
