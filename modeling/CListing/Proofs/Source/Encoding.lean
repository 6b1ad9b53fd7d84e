import CListing.Source.Basic

/-!
# Encoded texts

The byte of a line feed stands for a line feed only, so the lines of an encoded text are the encoded
lines of the text, and a file that was written as a text is read back as this text.
-/

namespace CListing

namespace Utf8

/-- The byte of a line feed is part of no other character. -/
theorem not_mem_encodeValue {n : Nat} (valid : n.isValidChar) (noFeed : n ≠ 10) :
    ∀ byte ∈ encodeValue n, (byte == 10) = false := by
  have range : n < 0xD800 ∨ (0xDFFF < n ∧ n < 0x110000) := valid
  have cons {m : Nat} {bytes : List UInt8} (small : m < 256) (other : m ≠ 10)
      (more : ∀ byte ∈ bytes, (byte == 10) = false) :
      ∀ byte ∈ UInt8.ofNat m :: bytes, (byte == 10) = false := by
    refine List.forall_mem_cons.mpr ⟨beq_eq_false_iff_ne.mpr fun same => ?_, more⟩
    have value := congrArg UInt8.toNat same
    rw [toNat_ofNat_of_lt small] at value
    exact other value
  have nil : ∀ byte ∈ ([] : List UInt8), (byte == 10) = false := by simp
  unfold encodeValue
  split
  · exact cons (by omega) noFeed nil
  split
  · exact cons (by omega) (by omega) (cons (by omega) (by omega) nil)
  split
  · exact cons (by omega) (by omega) (cons (by omega) (by omega) (cons (by omega) (by omega) nil))
  · exact cons (by omega) (by omega) (cons (by omega) (by omega) (cons (by omega) (by omega)
      (cons (by omega) (by omega) nil)))

theorem encodeValue_ne_nil (n : Nat) : encodeValue n ≠ [] := by
  unfold encodeValue
  split
  · simp
  split
  · simp
  split <;> simp

theorem encode_cons (c : Char) (text : List Char) :
    encode (c :: text) = encodeValue c.toNat ++ encode text :=
  List.flatMap_cons

@[simp]
theorem encode_eq_nil_iff {text : List Char} : encode text = [] ↔ text = [] := by
  cases text with
  | nil => simp [encode]
  | cons c rest => simp [encode_cons, encodeValue_ne_nil]

theorem encode_injective {first second : List Char} (same : encode first = encode second) :
    first = second := by
  have decoded := congrArg decode same
  rw [decode_encode, decode_encode] at decoded
  exact Except.ok.inj decoded

end Utf8

namespace Source

/-- Elements at which nothing ends are put in front of the first piece. -/
theorem splitAfter_append_of_goesOn {α : Type} {p : α → Bool} {front : List α}
    (filled : front ≠ []) (goesOn : ∀ x ∈ front, p x = false) (rest : List α) :
    splitAfter p (front ++ rest) =
      match splitAfter p rest with
      | [] => [front]
      | line :: lines => (front ++ line) :: lines := by
  induction front with
  | nil => contradiction
  | cons x front ih =>
    have here : ¬ p x = true := by simp [goesOn x List.mem_cons_self]
    rw [List.cons_append, splitAfter, if_neg here]
    cases front with
    | nil => rfl
    | cons y front =>
      rw [ih (by simp) fun z member => goesOn z (List.mem_cons_of_mem _ member)]
      cases splitAfter p rest <;> rfl

theorem splitAfter_encode (text : List Char) :
    splitAfter (· == 10) (Utf8.encode text) =
      (splitAfter (· == '\n') text).map Utf8.encode := by
  induction text with
  | nil => rfl
  | cons c rest ih =>
    rw [Utf8.encode_cons]
    by_cases feed : c = '\n'
    · subst feed
      have byte : Utf8.encodeValue '\n'.toNat = [10] := by decide
      rw [byte, List.singleton_append, splitAfter, if_pos (beq_self_eq_true _), splitAfter,
        if_pos (beq_self_eq_true _), ih]
      rfl
    · have noFeed : c.toNat ≠ 10 := fun same => feed (Char.toNat_inj.mp same)
      have goesOn : ∀ byte ∈ Utf8.encodeValue c.toNat, (byte == 10) = false :=
        Utf8.not_mem_encodeValue c.valid noFeed
      rw [splitAfter_append_of_goesOn (Utf8.encodeValue_ne_nil _) goesOn, ih, splitAfter,
        if_neg (by simpa using feed)]
      cases splitAfter (· == '\n') rest with
      | nil => simp [Utf8.encode]
      | cons line lines => simp [Utf8.encode]

/-- A file that was written as a text is read back as this text. -/
theorem ofBytes_encode (text : List Char) : ofBytes (Utf8.encode text) = ofText text := by
  rw [ofBytes, splitAfter_encode, ofByteLines_encode]
  rfl

end Source

end CListing
