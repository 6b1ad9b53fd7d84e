import CListing.Formatter.Nesting
import CListing.Proofs.Formatter.Grammar

/-!
# Drafting

A formatter along a feed that supplies certain tokens. What it has done since it stood somewhere is
described by where it stands now and by the draft of its script; nothing was reported. Reading a
token adds its mark to the row of the draft, and the other steps do what they say.
-/

namespace CListing

/-- A token in a row is not empty and does not end in a blank. -/
theorem inked_mark {item : Item} (spelling : Spelling item.category item.lexeme)
    (spacing : Spacing) : (item.mark spacing).Inked :=
  ⟨spelling.ink_ends.1, spelling.ink_ends.2.2⟩

namespace Formatter

/-- The formatter looks at the next token of the feed, as it was fetched; no token is put back. -/
structure StandsAt (formatter : Formatter Feed) (ahead : Feed) : Prop where
  source : formatter.cursor.source = ahead.fetch.2
  current : formatter.cursor.current = ahead.fetch.1.token
  spacing : formatter.cursor.spacing = ahead.fetch.1.spacing?.getD .free
  empty : formatter.cursor.lookahead? = none
  token : formatter.token = ahead.fetch.1.token

/-- The formatter that looks at the first token of a feed and has done nothing yet. -/
def standingAt (ahead : Feed) : Formatter Feed where
  cursor :=
    { source := ahead.fetch.2
      current := ahead.fetch.1.token
      spacing := ahead.fetch.1.spacing?.getD .free }
  token := ahead.fetch.1.token

theorem standsAt_standingAt (ahead : Feed) : (standingAt ahead).StandsAt ahead :=
  ⟨rfl, rfl, rfl, rfl, rfl⟩

/-- Since it was `base`, the formatter has come to the tokens of `ahead` with the draft, and has
reported nothing. -/
structure Drafts (base formatter : Formatter Feed) (ahead : Feed) (draft : Draft) : Prop where
  stands : formatter.StandsAt ahead
  kept : formatter = { base with
    cursor := formatter.cursor
    token := formatter.token
    script := formatter.script
    notes := formatter.notes }
  drafted : ∃ script, formatter.script.toList = base.script.toList ++ script ∧
    Draft.Run {} script draft

theorem StandsAt.kind {formatter : Formatter Feed} {ahead : Feed}
    (stands : formatter.StandsAt ahead) : formatter.kind = ahead.kind :=
  congrArg Token.category stands.token

theorem adjust_free (formatter : Formatter Feed) : formatter.adjust .free = formatter := by
  obtain ⟨cursor, token⟩ := formatter
  rw [adjust, Cursor.adjust, Spacing.merge_free]

theorem expect_of_kind {formatter : Formatter Feed} {required : Category}
    (here : formatter.kind = required) : formatter.expect required = formatter.advance :=
  if_pos here

namespace Drafts

variable {base formatter : Formatter Feed} {ahead next rest : Feed} {draft : Draft}
variable {level : Nat} {row : List Mark} {lines : List PlannedLine}

theorem start (stands : formatter.StandsAt ahead) : Drafts formatter formatter ahead {} where
  stands := stands
  kept := rfl
  drafted := ⟨[], by simp, Draft.Run.nil⟩

theorem perform (drafts : Drafts base formatter ahead draft) {command : Command} {after : Draft}
    (step : Draft.Step draft command after) :
    Drafts base (formatter.perform command) ahead after := by
  obtain ⟨⟨source, current, spacing, empty, token⟩, kept, script, drafted, run⟩ := drafts
  refine ⟨⟨source, current, spacing, empty, token⟩, ?_,
    script ++ [command], ?_, run.append step.run⟩
  · rw [Formatter.perform]
    rw [kept]
  · rw [Formatter.perform, Array.toList_push, drafted, List.append_assoc]

theorem endLine (drafts : Drafts base formatter ahead ⟨level, row, lines⟩) (nonempty : row ≠ []) :
    Drafts base formatter.endLine ahead ⟨level, [], lines ++ [.row level row]⟩ :=
  drafts.perform (Draft.Step.endLine nonempty)

/-- To end a line between rows does nothing. -/
theorem idle (drafts : Drafts base formatter ahead ⟨level, [], lines⟩) :
    Drafts base formatter.endLine ahead ⟨level, [], lines⟩ :=
  drafts.perform Draft.Step.idle

theorem indent (drafts : Drafts base formatter ahead ⟨level, [], lines⟩) :
    Drafts base formatter.indent ahead ⟨level + 1, [], lines⟩ :=
  drafts.perform Draft.Step.indent

theorem unindent (drafts : Drafts base formatter ahead ⟨level + 1, [], lines⟩) :
    Drafts base formatter.unindent ahead ⟨level, [], lines⟩ :=
  drafts.perform Draft.Step.unindent

/-- A token is written out when the next one is fetched. -/
theorem advance_adjust {fetch : Fetch} {item : Item}
    (drafts : Drafts base formatter (next.cons fetch) draft) (brings : fetch.Brings item)
    (alone : next.fetch.1.script = []) (spacing : Spacing) {after : Draft}
    (run : Draft.Run draft (.append (item.mark spacing).lexeme (item.mark spacing).spacing ::
      if next.kind = .endOfFile then [.endLine false] else []) after) :
    Drafts base (formatter.adjust spacing).advance next after := by
  obtain ⟨stands, kept, script, drafted, before⟩ := drafts
  have mark : (formatter.adjust spacing).cursor.release =
      [.append (item.mark spacing).lexeme (item.mark spacing).spacing] := by
    have lexeme : formatter.cursor.current.lexeme = item.lexeme := by
      rw [stands.current]
      exact congrArg Item.lexeme brings.yields
    have own : formatter.cursor.spacing = item.spelled := stands.spacing.trans brings.spacing
    have nonempty := brings.spelling.ink_ends.1
    rw [Cursor.release, adjust, Cursor.adjust, lexeme, own, if_neg (by simpa using nonempty)]
    rfl
  have commands : next.fetch.1.commands =
      if next.kind = .endOfFile then [.endLine false] else [] := by
    rw [Fetch.commands, alone, List.nil_append]
    rfl
  have step : (formatter.adjust spacing).cursor.next =
      { cursor :=
          { source := next.fetch.2
            current := next.fetch.1.token
            spacing := next.fetch.1.spacing?.getD .free
            lookahead? := none
            traced := formatter.cursor.traced }
        script := (formatter.adjust spacing).cursor.release ++ next.fetch.1.commands
        notes := next.fetch.1.notes ++ formatter.cursor.traceOf next.fetch.1.token } := by
    have source : formatter.cursor.source = next := stands.source
    simp [Cursor.next, adjust, Cursor.adjust, stands.empty, source, TokenSource.fetch,
      Cursor.traceOf]
  rw [mark, commands] at step
  rw [advance, step]
  refine ⟨⟨rfl, rfl, rfl, rfl, rfl⟩, ?_, _, ?_, before.append run⟩
  · rw [kept]
    rfl
  · rw [← List.append_assoc, ← drafted]
    exact Array.toList_appendList

/-- Reading a token before the end adds it to the row. -/
theorem read {item : Item} (drafts : Drafts base formatter ahead ⟨level, row, lines⟩)
    (supplies : ahead.Supplies [item] next) (goesOn : next.kind ≠ .endOfFile) (spacing : Spacing) :
    Drafts base (formatter.adjust spacing).advance next
      ⟨level, row ++ [item.mark spacing], lines⟩ := by
  cases supplies with
  | cons brings later =>
    cases later with
    | nil alone =>
      refine drafts.advance_adjust brings alone spacing ?_
      rw [if_neg goesOn]
      exact (Draft.Step.append (inked_mark brings.spelling spacing)).run

/-- Going on from a token before the end adds it to the row as it is spelled. -/
theorem advance {item : Item} (drafts : Drafts base formatter ahead ⟨level, row, lines⟩)
    (supplies : ahead.Supplies [item] next) (goesOn : next.kind ≠ .endOfFile) :
    Drafts base formatter.advance next ⟨level, row ++ [item.mark .free], lines⟩ := by
  have read := drafts.read supplies goesOn .free
  rwa [adjust_free] at read

/-- Reading the last token of a row and ending the line adds the row to the lines. -/
theorem readLast {item : Item} (drafts : Drafts base formatter ahead ⟨level, row, lines⟩)
    (supplies : ahead.Supplies [item] rest) (spacing : Spacing) :
    Drafts base (formatter.adjust spacing).advance.endLine rest
      ⟨level, [], lines ++ [.row level (row ++ [item.mark spacing])]⟩ := by
  cases supplies with
  | cons brings later =>
    cases later with
    | nil alone =>
      have appended : Draft.Step ⟨level, row, lines⟩ _ ⟨level, row ++ [item.mark spacing], lines⟩ :=
        Draft.Step.append (inked_mark brings.spelling spacing)
      have ended : Draft.Step ⟨level, row ++ [item.mark spacing], lines⟩ (.endLine false)
          ⟨level, [], lines ++ [.row level (row ++ [item.mark spacing])]⟩ :=
        Draft.Step.endLine (by simp)
      by_cases last : rest.kind = .endOfFile
      · -- At the end of the source the fetch has ended the line already.
        refine perform (drafts.advance_adjust brings alone spacing ?_) Draft.Step.idle
        rw [if_pos last]
        exact Draft.Run.cons appended ended.run
      · refine perform (drafts.advance_adjust brings alone spacing ?_) ended
        rw [if_neg last]
        exact appended.run

/-- A token that is expected before the end is read. -/
theorem expect {item : Item} (drafts : Drafts base formatter ahead ⟨level, row, lines⟩)
    (supplies : ahead.Supplies [item] next) (goesOn : next.kind ≠ .endOfFile) :
    Drafts base (formatter.expect item.category) next
      ⟨level, row ++ [item.mark .free], lines⟩ := by
  have here : formatter.kind = item.category := drafts.stands.kind.trans supplies.kind_eq
  rw [expect_of_kind here]
  exact drafts.advance supplies goesOn

/-- A token that is expected at the end of a row is read, and the row is ended. -/
theorem expectLast {item : Item} (drafts : Drafts base formatter ahead ⟨level, row, lines⟩)
    (supplies : ahead.Supplies [item] rest) :
    Drafts base (formatter.expect item.category).endLine rest
      ⟨level, [], lines ++ [.row level (row ++ [item.mark .free])]⟩ := by
  have here : formatter.kind = item.category := drafts.stands.kind.trans supplies.kind_eq
  have read := drafts.readLast supplies .free
  rwa [adjust_free, ← expect_of_kind here] at read

end Drafts

end Formatter

end CListing
