import CListing.Proofs.Formatter.FileLevel
import CListing.Proofs.Formatter.Notes
import CListing.Proofs.Reader.FeedNotes

/-!
# Expressions scanned with a stack

The levels of parentheses of an expression can be kept on a stack: each has the category that ends
it and the number of braces open on it. One scan along the tokens then finds the place where the
expression stops, and the levels that are still open there. The recursive reading of an expression
stops at the same place, and reports a parenthesis missing for each open level but the outermost.
-/

namespace CListing

/-- A level of an expression. -/
structure ExpressionLevel where
  /-- The category that ends the level. -/
  terminator : Category
  /-- The braces open on the level. -/
  braces : Nat
deriving DecidableEq, Repr

/-- Where a scan stops. -/
structure Halt where
  /-- The levels that are open, the innermost first. -/
  levels : List ExpressionLevel
  /-- The tokens that are left. -/
  rest : List Token
deriving DecidableEq, Repr

namespace Halt

/-- The category of the token at which the scan stops. -/
def category (halt : Halt) : Category :=
  (halt.rest.head?.map (·.category)).getD .endOfFile

/-- The levels left open inside the outermost one. -/
def unclosed (halt : Halt) : Nat :=
  halt.levels.length - 1

end Halt

namespace ExpressionLevel

/-! ## The scan -/

/-- The levels behind a token of the category. A brace that closes none of the innermost level is
not passed. -/
def pass? (category : Category) : List ExpressionLevel → Option (List ExpressionLevel)
  | [] => none
  | level :: outer =>
    if category = level.terminator then some outer
    else
      match category, level.braces with
      | .leftParen, _ => some ({ terminator := .rightParen, braces := 0 } :: level :: outer)
      | .leftBrace, braces => some ({ level with braces := braces + 1 } :: outer)
      | .rightBrace, 0 => none
      | .rightBrace, braces + 1 => some ({ level with braces := braces } :: outer)
      | _, _ => some (level :: outer)

/-- Scans the tokens before the end of a source, up to the one that ends the outermost level or is
not passed. -/
def scan (levels : List ExpressionLevel) : List Token → Halt
  | [] => { levels := levels, rest := [] }
  | token :: tokens =>
    match pass? token.category levels with
    | none => { levels := levels, rest := token :: tokens }
    | some [] => { levels := [], rest := token :: tokens }
    | some (next :: others) => scan (next :: others) tokens

variable {level next : ExpressionLevel} {levels inner outer others : List ExpressionLevel}
variable {category : Category} {token : Token} {tokens : List Token}

/-- A token that passes a level is behind the scan. -/
theorem scan_cons (passes : pass? token.category levels = some (next :: others)) :
    scan levels (token :: tokens) = scan (next :: others) tokens := by
  simp only [scan, passes]

/-- At the terminator of the only level the scan stops. -/
theorem scan_of_terminator (last : token.category = level.terminator) :
    scan [level] (token :: tokens) = ⟨[], token :: tokens⟩ := by
  simp [scan, pass?, last]

/-- A token that is neither the terminator nor a parenthesis nor a brace leaves the levels alone. -/
theorem pass?_of_ne (goes : category ≠ level.terminator) (noParen : category ≠ .leftParen)
    (noLeft : category ≠ .leftBrace) (noRight : category ≠ .rightBrace) :
    pass? category (level :: outer) = some (level :: outer) := by
  simp only [pass?]
  rw [if_neg goes]
  split <;> first | rfl | contradiction

/-- Only a closing brace is not passed. -/
theorem eq_rightBrace_of_pass? (stops : pass? category (level :: outer) = none) :
    category = .rightBrace := by
  simp only [pass?] at stops
  split at stops
  · contradiction
  · split at stops <;> first | rfl | contradiction

/-- The outermost level is closed by its terminator. -/
theorem eq_terminator_of_pass? (ends : pass? category levels = some []) :
    levels.getLast?.map (·.terminator) = some category := by
  cases levels with
  | nil => contradiction
  | cons level outer =>
    simp only [pass?] at ends
    split at ends
    · rename_i same
      obtain rfl := Option.some.inj ends
      exact congrArg some same.symm
    · split at ends <;> simp at ends

/-- As long as a level is open, the terminator of the outermost one stays. -/
theorem getLast?_pass? (goes : pass? category levels = some (next :: others)) :
    (next :: others).getLast?.map (·.terminator) = levels.getLast?.map (·.terminator) := by
  cases levels with
  | nil => contradiction
  | cons level outer =>
    simp only [pass?] at goes
    split at goes
    · obtain rfl := Option.some.inj goes
      rfl
    · split at goes <;> simp only [Option.some.injEq, List.cons.injEq, reduceCtorEq] at goes
      · obtain ⟨rfl, rfl⟩ := goes
        rfl
      all_goals
        obtain ⟨rfl, rfl⟩ := goes
        cases outer <;> rfl

/-- What a token does to the inner levels does not depend on those around them. -/
theorem pass?_append (category : Category) (level : ExpressionLevel)
    (inner outer : List ExpressionLevel) :
    pass? category (level :: inner ++ outer) =
      (pass? category (level :: inner)).map (· ++ outer) := by
  simp only [pass?, List.cons_append]
  split
  · rfl
  · split <;> rfl

/-- Where a scan stops if there are further levels around those that it was for: behind the token
that closes the last of its own it goes on in them. -/
def resume (outer : List ExpressionLevel) (halt : Halt) : Halt :=
  match halt.levels, outer with
  | [], next :: others => scan (next :: others) halt.rest.tail
  | levels, _ => { levels := levels ++ outer, rest := halt.rest }

theorem scan_append (level : ExpressionLevel) (inner outer : List ExpressionLevel)
    (tokens : List Token) :
    scan (level :: inner ++ outer) tokens = resume outer (scan (level :: inner) tokens) := by
  induction tokens generalizing level inner with
  | nil => rfl
  | cons token tokens ih =>
    have passes := pass?_append token.category level inner outer
    cases step : pass? token.category (level :: inner) with
    | none =>
      rw [step] at passes
      simp only [scan, passes, step]
      rfl
    | some later =>
      rw [step] at passes
      cases later with
      | nil =>
        simp only [scan, passes, step]
        cases outer <;> rfl
      | cons next others =>
        simp only [scan, passes, step]
        exact ih next others

/-- What is left are the last of the tokens. -/
theorem rest_scan_suffix (levels : List ExpressionLevel) (tokens : List Token) :
    (scan levels tokens).rest <:+ tokens := by
  induction tokens generalizing levels with
  | nil => exact List.suffix_refl _
  | cons token tokens ih =>
    simp only [scan]
    split
    · exact List.suffix_refl _
    · exact List.suffix_refl _
    · exact (ih _).trans (List.suffix_cons token tokens)

/-- Where no level is left open the terminator of the outermost one stands. -/
theorem category_of_closed (closed : (scan levels tokens).levels = []) (opened : levels ≠ []) :
    levels.getLast?.map (·.terminator) = some (scan levels tokens).category := by
  induction tokens generalizing levels with
  | nil => contradiction
  | cons token tokens ih =>
    simp only [scan] at closed ⊢
    split at closed
    · contradiction
    · rename_i ends
      exact eq_terminator_of_pass? ends
    · rename_i goes
      exact (getLast?_pass? goes).symm.trans (ih closed (List.cons_ne_nil _ _))

/-- Where a level is left open the source ends or a closing brace stands. -/
theorem category_of_opened (opened : (scan (level :: outer) tokens).levels ≠ []) :
    (scan (level :: outer) tokens).category = .endOfFile ∨
      (scan (level :: outer) tokens).category = .rightBrace := by
  induction tokens generalizing level outer with
  | nil => exact Or.inl rfl
  | cons token tokens ih =>
    simp only [scan] at opened ⊢
    split at opened
    · rename_i stops
      exact Or.inr (eq_rightBrace_of_pass? stops)
    · contradiction
    · exact ih opened

end ExpressionLevel

/-! ## Reports -/

/-- The note says that a token is missing. -/
def Note.isMissing : Note → Bool
  | .missing _ _ => true
  | _ => false

/-- The feed brings along neither reports nor notes that a token is missing. -/
structure Feed.Uncomplaining (feed : Feed) : Prop where
  script : feed.AllCommands (!·.isReport)
  notes : feed.AllNotes (·.isMissing = false)

/-- Reading a source reports nothing missing. -/
theorem Feed.uncomplaining_ofReader {source : Source} {feed : Feed}
    (found : ofReader? (Reader.ofSource source).1 = some feed) : feed.Uncomplaining := by
  have fault : ∀ note ∈ source.faultNote?, note.isMissing = false := by
    intro note made
    obtain ⟨fault, _, rfl⟩ := Option.map_eq_some_iff.mp made
    rfl
  have start : Reader.Tells (·.isMissing = false) (Reader.ofSource source).2
      (Reader.ofSource source).1 := Reader.tells_notice fault
  exact ⟨allCommands_ofReader rfl (fun _ => rfl) found,
    allNotes_ofReaderWithin ⟨fun _ => rfl, fun _ => rfl⟩ start.fault found⟩

/-- What was reported missing. -/
structure Complaints where
  count : Nat
  /-- The reports in the script. -/
  script : List Command
  /-- The entries of the log. -/
  notes : List Note
deriving DecidableEq, Repr

/-- So many more reports that a token of the category is missing before the one found. -/
def Complaints.more (complaints : Complaints) (count : Nat) (required : Category) (found : Token) :
    Complaints where
  count := complaints.count + count
  script :=
    complaints.script ++ List.replicate count (.report ("MISSING " ++ required.name).toList)
  notes := complaints.notes ++ List.replicate count (.missing required found)

theorem Complaints.more_zero (complaints : Complaints) (required : Category) (found : Token) :
    complaints.more 0 required found = complaints := by
  simp [more]

theorem Complaints.more_more (complaints : Complaints) (first second : Nat) (required : Category)
    (found : Token) :
    (complaints.more first required found).more second required found =
      complaints.more (first + second) required found := by
  simp only [more, List.append_assoc, List.replicate_append_replicate, Nat.add_assoc]

namespace Formatter

open Round ExpressionLevel

/-- What the formatter reported missing so far. -/
def complaints (f : Formatter Feed) : Complaints where
  count := f.missing
  script := f.script.toList.filter Command.isReport
  notes := f.notes.toList.filter Note.isMissing

variable {f g : Formatter Feed} {terminator previous : Category} {braces : Nat}

theorem complaints_reportMissing (f : Formatter Feed) (required : Category) :
    (f.reportMissing required).complaints = f.complaints.more 1 required f.token := by
  simp [complaints, reportMissing, Complaints.more, Command.isReport, Note.isMissing]

/-- To go on to the next token is to report nothing. -/
theorem complaints_advance (silent : f.cursor.source.Uncomplaining) :
    f.advance.complaints = f.complaints ∧ f.advance.cursor.source.Uncomplaining := by
  cases slot : f.cursor.lookahead? with
  | some token =>
    rw [advance_of_put slot]
    exact ⟨rfl, silent⟩
  | none =>
    obtain ⟨commands, script⟩ := silent.script.fetch rfl
    obtain ⟨brought, notes⟩ := silent.notes.fetch
    have released : f.cursor.release.filter Command.isReport = [] := by
      unfold Cursor.release
      split <;> rfl
    have traced (token : Token) : (f.cursor.traceOf token).filter Note.isMissing = [] := by
      unfold Cursor.traceOf
      split <;> rfl
    have fetched : f.cursor.source.fetch.1.commands.filter Command.isReport = [] := by
      simpa [List.filter_eq_nil_iff] using commands
    have noted : f.cursor.source.fetch.1.notes.filter Note.isMissing = [] := by
      simpa [List.filter_eq_nil_iff] using brought
    rw [advance_of_free slot]
    refine ⟨?_, script, notes⟩
    simp [complaints, released, traced, fetched, noted]

/-! ## The reading of an expression -/

theorem kind_eq_of_ahead {tokens : List Token} (split : f.ahead = tokens) :
    f.kind = (tokens.head?.map (·.category)).getD .endOfFile := by
  cases tokens with
  | nil =>
    by_contra notEnd
    rw [ahead_advance notEnd] at split
    contradiction
  | cons token tokens => exact (kind_of_ahead split).2.1

/-- From the first state to the second tokens are taken up to where a scan stops, and a parenthesis
is reported missing for each level that is left open inside the outermost one. -/
structure HaltsAt (f : Formatter Feed) (halt : Halt) (g : Formatter Feed) : Prop where
  ahead : g.ahead = halt.rest
  source : g.cursor.source.Uncomplaining
  complaints : g.complaints = f.complaints.more halt.unclosed .rightParen g.token
  endless : g.endless = f.endless

namespace HaltsAt

variable {halt : Halt}

/-- The formatter is where the scan stops. -/
theorem here (silent : f.cursor.source.Uncomplaining) (stops : f.ahead = halt.rest)
    (closed : halt.unclosed = 0) : HaltsAt f halt f :=
  ⟨stops, silent, by rw [closed, Complaints.more_zero], rfl⟩

/-- What the scan counts from is what was reported before. -/
theorem congr {start : Formatter Feed} (halts : HaltsAt start halt g)
    (complaints : start.complaints = f.complaints) (endless : start.endless = f.endless) :
    HaltsAt f halt g :=
  ⟨halts.ahead, halts.source, complaints ▸ halts.complaints, halts.endless.trans endless⟩

theorem kind (halts : HaltsAt f halt g) : g.kind = halt.category :=
  kind_eq_of_ahead halts.ahead

/-- Behind a level that is closed the tokens after it are read. -/
theorem beyond {rest : List Token} {last : Formatter Feed} (halts : HaltsAt f ⟨[], rest⟩ g)
    (later : HaltsAt g.advance halt last) : HaltsAt f halt last := by
  refine later.congr ?_ halts.endless
  rw [(complaints_advance halts.source).1, halts.complaints]
  exact Complaints.more_zero _ _ _

/-- A level that is left open is reported, and the level around it is left open too. -/
theorem reportMissing {levels : List ExpressionLevel} {rest : List Token}
    (halts : HaltsAt f ⟨levels, rest⟩ g) (opened : levels ≠ []) (outer : ExpressionLevel) :
    HaltsAt f ⟨levels ++ [outer], rest⟩ (g.reportMissing .rightParen) := by
  refine ⟨halts.ahead, halts.source, ?_, halts.endless⟩
  have deeper : Halt.unclosed ⟨levels ++ [outer], rest⟩ = Halt.unclosed ⟨levels, rest⟩ + 1 := by
    have positive := List.length_pos_iff.mpr opened
    simp only [Halt.unclosed, List.length_append, List.length_singleton]
    omega
  rw [complaints_reportMissing, halts.complaints, deeper]
  exact Complaints.more_more _ _ _ _ _

end HaltsAt

/-- A level that is read on with from the state is read up to where the scan stops. -/
def Scanned (f : Formatter Feed) : Prop :=
  ∀ terminator previous braces, HaltsAt f (scan [⟨terminator, braces⟩] f.ahead)
    (expressionLoop terminator (previous, braces, f))

/-- Where the reading of an expression comes behind an opening parenthesis. -/
def insideParens (f : Formatter Feed) (previous : Category) : Formatter Feed :=
  ((f.markExpression previous).markCall previous).advance

variable {token : Token} {tokens : List Token}

theorem insideParens_spec (silent : f.cursor.source.Uncomplaining)
    (split : f.ahead = token :: tokens) (previous : Category) :
    (f.insideParens previous).ahead = tokens ∧
      (f.insideParens previous).cursor.source.Uncomplaining ∧
      (f.insideParens previous).complaints = f.complaints ∧
      (f.insideParens previous).endless = f.endless := by
  have marks := (Passes.markExpression f previous).trans
    (Passes.markCall (f.markExpression previous) previous)
  have marked : ((f.markExpression previous).markCall previous).cursor.source = f.cursor.source ∧
      ((f.markExpression previous).markCall previous).complaints = f.complaints := by
    unfold markCall
    split <;> exact ⟨rfl, rfl⟩
  obtain ⟨same, source⟩ := complaints_advance (marked.1 ▸ silent)
  have step := marks.step split
  exact ⟨step.behind split, source, same.trans marked.2, step.endless⟩

/-- Behind an opening parenthesis a level of its own is read. If it stops at its parenthesis, the
level around it goes on; else that level stops at the same place, and the parenthesis is missing. -/
theorem haltsAt_parens (silent : f.cursor.source.Uncomplaining) (split : f.ahead = token :: tokens)
    (goes : .leftParen ≠ terminator) (opens : token.category = .leftParen)
    (shorter : ∀ later : Formatter Feed, later.ahead.length ≤ tokens.length →
      later.cursor.source.Uncomplaining → later.Scanned) :
    HaltsAt f (scan [⟨terminator, braces⟩] (token :: tokens))
      (expressionLoop terminator (previous, braces, f)) := by
  obtain ⟨behind, source, same, endless⟩ := insideParens_spec silent split previous
  have opened : f.kind = .leftParen := (kind_of_ahead split).2.1.trans opens
  have inner : HaltsAt (f.insideParens previous) (scan [⟨.rightParen, 0⟩] tokens)
      ((f.insideParens previous).expression .rightParen) := by
    have read :=
      shorter _ (Nat.le_of_eq (congrArg List.length behind)) source .rightParen .foreign 0
    rwa [behind] at read
  have whole : scan [⟨terminator, braces⟩] (token :: tokens) =
      resume [⟨terminator, braces⟩] (scan [⟨.rightParen, 0⟩] tokens) := by
    rw [← scan_append]
    simp [scan, pass?, opens, goes]
  have kind := inner.kind
  have suffix := rest_scan_suffix [⟨.rightParen, 0⟩] tokens
  have closed := @category_of_closed [⟨.rightParen, 0⟩] tokens
  have unclosed := @category_of_opened ⟨.rightParen, 0⟩ [] tokens
  generalize read_eq : (f.insideParens previous).expression .rightParen = read at inner kind
  generalize scan [⟨.rightParen, 0⟩] tokens = halt at *
  obtain ⟨levels, rest⟩ := halt
  rw [whole]
  refine HaltsAt.congr ?_ same endless
  cases levels with
  | nil =>
    have closes : read.kind = .rightParen :=
      kind.trans (Option.some.inj (closed rfl (List.cons_ne_nil _ _))).symm
    have round := @expressionRound_of_parens f read terminator previous braces goes opened read_eq
      closes
    have next : rest = read.token :: read.advance.ahead :=
      inner.ahead.symm.trans (ahead_advance (by rw [closes]; decide))
    have fewer : read.advance.ahead.length ≤ tokens.length := by
      have length := suffix.length_le
      rw [next, List.length_cons] at length
      omega
    have later := shorter read.advance fewer (complaints_advance inner.source).2 terminator
      .rightParen braces
    rw [(consuming_expressionLoop terminator).eq_of_more round, next]
    exact inner.beyond later
  | cons level levels =>
    have unmatched : read.kind ≠ .rightParen := by
      rw [kind]
      rcases unclosed (List.cons_ne_nil _ _) with ends | closes
      · rw [ends]
        decide
      · rw [closes]
        decide
    have round : expressionRound terminator (previous, braces, f) =
        .done (read.reportMissing .rightParen) := by
      have mark : (f.markExpression previous).kind = .leftParen := opened
      simp only [expressionRound]
      rw [if_neg (by simp [goes, opened]), mark]
      dsimp only
      rw [← insideParens, read_eq, if_neg unmatched]
    rw [(consuming_expressionLoop terminator).eq_of_done round]
    exact inner.reportMissing (List.cons_ne_nil _ _) _

/-- A token that is taken leaves the level open, with the braces that the scan counts. -/
theorem haltsAt_taken {before : Category} {inside : Nat} (silent : f.cursor.source.Uncomplaining)
    (split : f.ahead = token :: tokens)
    (goes : expressionRound terminator (previous, braces, f) =
      .more (before, inside, (f.markExpression previous).advance))
    (passes : pass? token.category [⟨terminator, braces⟩] = some [⟨terminator, inside⟩])
    (shorter : ∀ later : Formatter Feed, later.ahead.length ≤ tokens.length →
      later.cursor.source.Uncomplaining → later.Scanned) :
    HaltsAt f (scan [⟨terminator, braces⟩] (token :: tokens))
      (expressionLoop terminator (previous, braces, f)) := by
  have behind := ((Passes.markExpression f previous).step split).behind split
  obtain ⟨same, source⟩ := complaints_advance (f := f.markExpression previous) silent
  have later := shorter _ (Nat.le_of_eq (congrArg List.length behind)) source terminator before
    inside
  rw [behind] at later
  rw [(consuming_expressionLoop terminator).eq_of_more goes, scan_cons passes]
  exact later.congr same rfl

/-- At a brace that closes none of the level both stop. -/
theorem haltsAt_unmatched (silent : f.cursor.source.Uncomplaining)
    (split : f.ahead = token :: tokens) (goes : .rightBrace ≠ terminator)
    (closes : token.category = .rightBrace) :
    HaltsAt f (scan [⟨terminator, 0⟩] (token :: tokens))
      (expressionLoop terminator (previous, 0, f)) := by
  have here : f.kind = .rightBrace := (kind_of_ahead split).2.1.trans closes
  have stops : scan [⟨terminator, 0⟩] (token :: tokens) =
      ⟨[⟨terminator, 0⟩], token :: tokens⟩ := by
    simp [scan, pass?, closes, goes]
  have round : expressionRound terminator (previous, 0, f) = .done (f.markExpression previous) := by
    have mark : (f.markExpression previous).kind = .rightBrace := here
    simp only [expressionRound]
    rw [if_neg (by simp [goes, here]), mark]
  have atBrace : HaltsAt (f.markExpression previous) ⟨[⟨terminator, 0⟩], token :: tokens⟩
      (f.markExpression previous) := .here silent split rfl
  rw [stops, (consuming_expressionLoop terminator).eq_of_done round]
  exact atBrace.congr rfl rfl

/-- A level of an expression is read up to where the scan of its tokens stops. -/
theorem scanned_of_uncomplaining (silent : f.cursor.source.Uncomplaining) : f.Scanned := by
  induction size : f.ahead.length using Nat.strong_induction_on generalizing f with
  | _ size ih =>
    subst size
    intro terminator previous braces
    cases split : f.ahead with
    | nil =>
      have ends : f.kind = .endOfFile := kind_eq_of_ahead split
      have round : expressionRound terminator (previous, braces, f) = .done f := by
        rw [expressionRound, if_pos (by simp [ends])]
      rw [(consuming_expressionLoop terminator).eq_of_done round]
      exact .here silent split rfl
    | cons token tokens =>
      obtain ⟨_, here, notEnd⟩ := kind_of_ahead split
      have shorter (later : Formatter Feed) (fewer : later.ahead.length ≤ tokens.length)
          (source : later.cursor.source.Uncomplaining) : later.Scanned :=
        ih _ (by rw [split]; exact Nat.lt_succ_of_le fewer) source rfl
      -- the cases of `pass?`
      by_cases last : token.category = terminator
      · rw [expressionLoop_of_terminator (here.trans last), scan_of_terminator last]
        exact .here silent split rfl
      by_cases opens : token.category = .leftParen
      · exact haltsAt_parens silent split (opens ▸ last) opens shorter
      by_cases begins : token.category = .leftBrace
      · have goes : .leftBrace ≠ terminator := begins ▸ last
        refine haltsAt_taken silent split
          (expressionRound_of_leftBrace goes (here.trans begins)) ?_ shorter
        simp [pass?, begins, goes]
      by_cases closes : token.category = .rightBrace
      · have goes : .rightBrace ≠ terminator := closes ▸ last
        cases braces with
        | zero => exact haltsAt_unmatched silent split goes closes
        | succ outer =>
          refine haltsAt_taken silent split
            (expressionRound_of_rightBrace goes (here.trans closes)) ?_ shorter
          simp [pass?, closes, goes]
      · rw [← here] at last opens begins closes
        refine haltsAt_taken silent split
          (expressionRound_of_ne last notEnd opens begins closes braces) ?_ shorter
        rw [here] at last opens begins closes
        exact pass?_of_ne last opens begins closes

/-- An expression is read as a scan with a stack of levels does it. It takes the tokens before the
place where the scan stops, and no other. It reports a parenthesis missing, before the token there,
for each level but the outermost that is still open, and reports nothing else. -/
theorem expression_stackScan (silent : f.cursor.source.Uncomplaining) (terminator : Category) :
    let halt := scan [{ terminator := terminator, braces := 0 }] f.ahead
    let read := f.expression terminator
    (∃ taken, f.ahead = taken ++ halt.rest) ∧ read.ahead = halt.rest ∧
      read.kind = halt.category ∧
      read.complaints = f.complaints.more halt.unclosed .rightParen read.token ∧
      read.endless = f.endless := by
  have halts := scanned_of_uncomplaining silent terminator .foreign 0
  obtain ⟨taken, split⟩ := rest_scan_suffix [⟨terminator, 0⟩] f.ahead
  exact ⟨⟨taken, split.symm⟩, halts.ahead, halts.kind, halts.complaints, halts.endless⟩

/-- A brace that closes nothing ends an expression with two parentheses open, behind a pair of
braces with a semicolon inside. -/
theorem expression_stackScan_unmatched :
    ∃ feed,
      Feed.ofReader? (Reader.ofSource (Source.ofText "f((a\x7b;\x7d)(b\x7dc".toList)).1 =
        some feed ∧
      let f := (ofTokens feed false []).advance
      f.cursor.source.Uncomplaining ∧ (f.expression .semicolon).kind = .rightBrace ∧
        (f.expression .semicolon).complaints =
          f.complaints.more 2 .rightParen (f.expression .semicolon).token := by
  have tokens : (Feed.ofReader?
      (Reader.ofSource (Source.ofText "f((a\x7b;\x7d)(b\x7dc".toList)).1).map
        (fun feed =>
          let halt := scan [⟨.semicolon, 0⟩] (ofTokens feed false []).advance.ahead
          (halt.category, halt.unclosed)) = some (.rightBrace, 2) := by
    decide +kernel
  obtain ⟨feed, found, halt⟩ := Option.map_eq_some_iff.mp tokens
  obtain ⟨category, unclosed⟩ := Prod.mk.inj halt
  have silent := (complaints_advance (f := ofTokens feed false [])
    (Feed.uncomplaining_ofReader found)).2
  obtain ⟨_, _, kind, complaints, _⟩ := expression_stackScan silent .semicolon
  exact ⟨feed, found, silent, kind.trans category, unclosed ▸ complaints⟩

end Formatter

end CListing
