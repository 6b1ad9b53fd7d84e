import CListing.Proofs.Formatter.AnySource
import CListing.Proofs.Reader.Requests

/-!
# Putting tokens back

A cursor has room for one token that is put back. Whatever is asked of it, each token goes to the
listing once; and a walk never asks for more room, because it puts a token back only right after it
went on to that token.
-/

namespace CListing

open Cursor

/-- A token is put back only where there is room for it. -/
theorem Formatter.stepInvariant_misuse? {σ : Type} [TokenSource σ] :
    StepInvariant fun f : Formatter σ => f.misuse? = none where
  perform _ holds := holds
  reportMissing _ holds := holds
  adjust _ holds := holds
  advance holds := holds
  lookAgain {f} holds := by
    have free : f.advance.cursor.lookahead? = none := Cursor.lookahead?_next f.cursor
    simp only [Formatter.putBack, Cursor.putBack, free]
    exact holds
  giveUp holds := holds
  countFunction holds := holds
  countOpened holds := holds
  countClosed holds := holds

/-- Whatever a reader stands before, and whatever is asked of a cursor there: the token put back is
the current one, and the tokens fetched before the current one are in the script, each once and in
their order, unless they have no text. To put back a token is refused exactly if one is put back,
and changes nothing then; otherwise going on restores everything. No walk along any source is ever
refused. -/
theorem requests_flush_once :
    (∀ (reader : Reader) (traced : Bool) (requests : List Request),
      let session := Session.run { cursor := { source := reader, traced := traced } } requests
      (session.cursor.lookahead? = none ∨
        session.cursor.lookahead? = some session.cursor.current) ∧
        ∃ count flushed, session.cursor.source = reader.afterTokens count ∧
          Token.start :: reader.tokens count = flushed ++ [session.cursor.current] ∧
            appended session.script = (flushed.map (·.lexeme)).filter (· ≠ [])) ∧
      (∀ (session : Session Reader) (request : Request) (refusal : Occupied),
        session.cursor.serve request = .error refusal ↔
          request = .putBack ∧ session.cursor.lookahead? = some refusal.token) ∧
      (∀ (session : Session Reader) (refusal : Occupied),
        session.cursor.serve .putBack = .error refusal →
          session.step .putBack = { session with refusals := session.refusals ++ [refusal] }) ∧
      (∀ session : Session Reader, session.cursor.lookahead? = none →
        (session.step .putBack).step .next = session) ∧
      ∀ {σ : Type} [TokenSource σ] (source : σ) (traced : Bool) (notes : List Note),
        (Formatter.ofTokens source traced notes).file.misuse? = none := by
  refine ⟨fun reader traced requests => ?_, fun session => serve_eq_error_iff session.cursor,
    fun session refusal refused => ?_, fun session => step_putBack_next,
    fun source traced notes => Formatter.stepInvariant_misuse?.file rfl⟩
  · obtain ⟨slot, fetched⟩ := (Flushed.start reader traced).run requests
    exact ⟨slot, fetched⟩
  · exact step_of_occupied ((serve_eq_error_iff _ _ _).mp refused).2

/-- The second token is put back: to put it back once more is refused, and going on restores it. -/
theorem requests_flush_once_refused :
    let session := Session.run { cursor := { source := ({ chars := "a b".toList } : Reader) } }
      [.next, .next]
    let put := session.step .putBack
    appended session.script = ["a".toList] ∧
      put.cursor.serve .putBack = .error ⟨{ category := .identifier, lexeme := ['b'], line := 1 }⟩ ∧
      put.step .putBack =
        { put with refusals := [⟨{ category := .identifier, lexeme := ['b'], line := 1 }⟩] } ∧
      put.step .next = session := by
  intro session put
  have occupied : put.cursor.lookahead? =
      some { category := .identifier, lexeme := ['b'], line := 1 } := by decide
  have refused := (requests_flush_once.2.1 put .putBack ⟨_⟩).mpr ⟨rfl, occupied⟩
  exact ⟨by decide, refused, requests_flush_once.2.2.1 put _ refused,
    requests_flush_once.2.2.2.1 session (by decide)⟩

end CListing
