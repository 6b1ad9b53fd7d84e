/-!
# UTF-8

Bytes are decoded one at a time. The state between two bytes says how many continuation bytes are
still due, which values the next one may take, and the part of the code point read so far. The
restrictions on the second byte rule out overlong forms, surrogates and code points above
U+10FFFF. Decoding stops at the first fault and says where it lies. The main statement says that
decoding undoes encoding.
-/

namespace CListing.Utf8

/-- Why bytes cannot be decoded. -/
inductive Reason
  /-- The byte begins no character. -/
  | badStart
  /-- The byte after these ones does not go on with the character. -/
  | badContinuation
  /-- The bytes end within a character. -/
  | truncated
deriving DecidableEq, Repr

/-- The first bytes that cannot be decoded: one lead byte and the continuation bytes taken with
it. -/
structure Fault where
  position : Nat
  lead : UInt8
  continuations : Nat
  reason : Reason
deriving DecidableEq, Repr

/-- A character under way. -/
structure Pending where
  lead : UInt8
  /-- The continuation bytes taken. -/
  taken : Nat
  /-- The continuation bytes due after the next one. -/
  dueAfter : Nat
  /-- The least and the greatest value of the next byte. -/
  low : Nat
  high : Nat
  /-- The code point so far. -/
  value : Nat
deriving DecidableEq, Repr

/-- The state after a lead byte. The second byte of E0, ED, F0 and F4 is restricted. -/
def Pending.ofLead? (byte : UInt8) : Option Pending :=
  let n := byte.toNat
  if n < 0xC2 then none
  else if n < 0xE0 then
    some { lead := byte, taken := 0, dueAfter := 0, low := 0x80, high := 0xBF, value := n - 0xC0 }
  else if n < 0xF0 then
    some {
      lead := byte
      taken := 0
      dueAfter := 1
      low := if n = 0xE0 then 0xA0 else 0x80
      high := if n = 0xED then 0x9F else 0xBF
      value := n - 0xE0 }
  else if n < 0xF5 then
    some {
      lead := byte
      taken := 0
      dueAfter := 2
      low := if n = 0xF0 then 0x90 else 0x80
      high := if n = 0xF4 then 0x8F else 0xBF
      value := n - 0xF0 }
  else none

/-- The fault of a character that is broken off before the byte at `position`. -/
def Pending.fault (pending : Pending) (position : Nat) (reason : Reason) : Fault where
  position := position - (pending.taken + 1)
  lead := pending.lead
  continuations := pending.taken
  reason := reason

/-- Decodes the bytes from `position` on, after a character under way if there is one. -/
def decodeFrom (position : Nat) (pending? : Option Pending) :
    List UInt8 → Except Fault (List Char)
  | [] =>
    match pending? with
    | none => .ok []
    | some pending => .error (pending.fault position .truncated)
  | byte :: rest =>
    match pending? with
    | none =>
      if byte.toNat < 0x80 then
        (decodeFrom (position + 1) none rest).map (Char.ofNat byte.toNat :: ·)
      else
        match Pending.ofLead? byte with
        | some pending => decodeFrom (position + 1) (some pending) rest
        | none =>
          .error { position := position, lead := byte, continuations := 0, reason := .badStart }
    | some pending =>
      if pending.low ≤ byte.toNat && byte.toNat ≤ pending.high then
        let value := 64 * pending.value + (byte.toNat - 0x80)
        match pending.dueAfter with
        | 0 => (decodeFrom (position + 1) none rest).map (Char.ofNat value :: ·)
        | due + 1 =>
          let next : Pending :=
            { lead := pending.lead, taken := pending.taken + 1, dueAfter := due,
              low := 0x80, high := 0xBF, value := value }
          decodeFrom (position + 1) (some next) rest
      else .error (pending.fault position .badContinuation)

/-- The characters of the bytes, or the first fault in them. -/
def decode (bytes : List UInt8) : Except Fault (List Char) :=
  decodeFrom 0 none bytes

/-- The bytes of a code point. -/
def encodeValue (n : Nat) : List UInt8 :=
  if n < 0x80 then [UInt8.ofNat n]
  else if n < 0x800 then [UInt8.ofNat (0xC0 + n / 64), UInt8.ofNat (0x80 + n % 64)]
  else if n < 0x10000 then
    [UInt8.ofNat (0xE0 + n / 4096), UInt8.ofNat (0x80 + n / 64 % 64), UInt8.ofNat (0x80 + n % 64)]
  else
    [UInt8.ofNat (0xF0 + n / 262144), UInt8.ofNat (0x80 + n / 4096 % 64),
     UInt8.ofNat (0x80 + n / 64 % 64), UInt8.ofNat (0x80 + n % 64)]

/-- The bytes of a text. -/
def encode (text : List Char) : List UInt8 :=
  text.flatMap fun c => encodeValue c.toNat

/-- A number below 256 is the value of its byte. -/
theorem toNat_ofNat_of_lt {n : Nat} (small : n < 256) : (UInt8.ofNat n).toNat = n := by
  simp [Nat.mod_eq_of_lt small]

/-! ## Lead bytes -/

theorem ofLead?_two (byte : UInt8) (low : 0xC2 ≤ byte.toNat) (high : byte.toNat < 0xE0) :
    Pending.ofLead? byte =
      some {
        lead := byte
        taken := 0
        dueAfter := 0
        low := 0x80
        high := 0xBF
        value := byte.toNat - 0xC0 } := by
  simp only [Pending.ofLead?]
  rw [if_neg (by omega), if_pos high]

theorem ofLead?_three (byte : UInt8) (low : 0xE0 ≤ byte.toNat) (high : byte.toNat < 0xF0) :
    Pending.ofLead? byte =
      some {
        lead := byte
        taken := 0
        dueAfter := 1
        low := if byte.toNat = 0xE0 then 0xA0 else 0x80
        high := if byte.toNat = 0xED then 0x9F else 0xBF
        value := byte.toNat - 0xE0 } := by
  simp only [Pending.ofLead?]
  rw [if_neg (by omega), if_neg (by omega), if_pos high]

theorem ofLead?_four (byte : UInt8) (low : 0xF0 ≤ byte.toNat) (high : byte.toNat < 0xF5) :
    Pending.ofLead? byte =
      some {
        lead := byte
        taken := 0
        dueAfter := 2
        low := if byte.toNat = 0xF0 then 0x90 else 0x80
        high := if byte.toNat = 0xF4 then 0x8F else 0xBF
        value := byte.toNat - 0xF0 } := by
  simp only [Pending.ofLead?]
  rw [if_neg (by omega), if_neg (by omega), if_neg (by omega), if_pos high]

/-! ## Continuation bytes -/

/-- The code point without so many of its last digits to base 64. -/
def leading (n : Nat) : Nat → Nat
  | 0 => n
  | count + 1 => leading n count / 64

/-- The continuation bytes of the last digits of a code point. -/
def continuations (n : Nat) : Nat → List UInt8
  | 0 => []
  | count + 1 => UInt8.ofNat (0x80 + leading n count % 64) :: continuations n count

theorem length_continuations (n count : Nat) : (continuations n count).length = count := by
  induction count with
  | zero => rfl
  | succ count ih => rw [continuations, List.length_cons, ih]

/-- The character under way has the digits of the code point but for those due, and may go on with
the next one. -/
structure Pending.Awaits (pending : Pending) (n : Nat) : Prop where
  value : pending.value = leading n (pending.dueAfter + 1)
  low : pending.low ≤ 0x80 + leading n pending.dueAfter % 64
  high : 0x80 + leading n pending.dueAfter % 64 ≤ pending.high

/-- The byte of the next digit adds it to the character under way. -/
theorem decodeFrom_digit {n : Nat} {pending : Pending} (awaits : pending.Awaits n) (position : Nat)
    (rest : List UInt8) :
    decodeFrom position (some pending)
        (UInt8.ofNat (0x80 + leading n pending.dueAfter % 64) :: rest) =
      match pending.dueAfter with
      | 0 => (decodeFrom (position + 1) none rest).map (Char.ofNat n :: ·)
      | due + 1 =>
        let next : Pending :=
          { lead := pending.lead, taken := pending.taken + 1, dueAfter := due,
            low := 0x80, high := 0xBF, value := leading n (due + 1) }
        decodeFrom (position + 1) (some next) rest := by
  obtain ⟨value, low, high⟩ := awaits
  have digit := toNat_ofNat_of_lt (n := 0x80 + leading n pending.dueAfter % 64) (by omega)
  have longer : 64 * pending.value + leading n pending.dueAfter % 64 =
      leading n pending.dueAfter := by
    rw [value]
    exact Nat.div_add_mod _ _
  rw [decodeFrom]
  simp only [digit, low, high, decide_true, Bool.and_self, if_true, Nat.add_sub_cancel_left, longer]
  cases due : pending.dueAfter with
  | zero => rfl
  | succ count => rfl

/-- With the bytes of the digits due, the character under way becomes that of the code point. -/
theorem decodeFrom_continuations {n : Nat} {pending : Pending} (awaits : pending.Awaits n)
    (position : Nat) (rest : List UInt8) :
    decodeFrom position (some pending) (continuations n (pending.dueAfter + 1) ++ rest) =
      (decodeFrom (position + (pending.dueAfter + 1)) none rest).map (Char.ofNat n :: ·) := by
  induction due : pending.dueAfter generalizing pending position with
  | zero =>
    have step := decodeFrom_digit awaits position rest
    rw [due] at step
    exact step
  | succ count ih =>
    have step := decodeFrom_digit awaits position (continuations n (count + 1) ++ rest)
    rw [due] at step
    let next : Pending :=
      { lead := pending.lead, taken := pending.taken + 1, dueAfter := count,
        low := 0x80, high := 0xBF, value := leading n (count + 1) }
    have later : next.Awaits n := by
      refine ⟨rfl, Nat.le_add_right _ _, ?_⟩
      dsimp only [next]
      omega
    calc decodeFrom position (some pending) (continuations n (count + 1 + 1) ++ rest)
      _ = decodeFrom (position + 1) (some next) (continuations n (count + 1) ++ rest) := step
      _ = (decodeFrom (position + 1 + (count + 1)) none rest).map (Char.ofNat n :: ·) :=
        ih later (position + 1) rfl
      _ = (decodeFrom (position + (count + 1 + 1)) none rest).map (Char.ofNat n :: ·) := by
        rw [Nat.add_assoc, Nat.add_comm 1]

/-- A code point above ASCII is a lead byte, which awaits the others, and their bytes. -/
theorem exists_lead {n : Nat} (valid : n.isValidChar) (notAscii : ¬ n < 0x80) :
    ∃ lead pending, encodeValue n = lead :: continuations n (pending.dueAfter + 1) ∧
      ¬ lead.toNat < 0x80 ∧ Pending.ofLead? lead = some pending ∧ pending.Awaits n := by
  have range : n < 0xD800 ∨ (0xDFFF < n ∧ n < 0x110000) := valid
  rw [encodeValue, if_neg notAscii]
  split
  · rename_i two
    have lead := toNat_ofNat_of_lt (n := 0xC0 + n / 64) (by omega)
    have begins := ofLead?_two (UInt8.ofNat (0xC0 + n / 64)) (by omega) (by omega)
    rw [lead] at begins
    refine ⟨_, _, ?_, ?_, begins, ?_, ?_, ?_⟩
    · simp [continuations, leading]
    · omega
    · dsimp only [leading]
      omega
    · dsimp only [leading]
      omega
    · dsimp only [leading]
      omega
  split
  · rename_i notTwo three
    have lead := toNat_ofNat_of_lt (n := 0xE0 + n / 4096) (by omega)
    have begins := ofLead?_three (UInt8.ofNat (0xE0 + n / 4096)) (by omega) (by omega)
    rw [lead] at begins
    refine ⟨_, _, ?_, ?_, begins, ?_, ?_, ?_⟩
    · simp [continuations, leading]
    · omega
    · dsimp only [leading]
      omega
    · dsimp only [leading]
      split <;> omega
    · dsimp only [leading]
      split <;> omega
  · rename_i notTwo notThree
    have lead := toNat_ofNat_of_lt (n := 0xF0 + n / 262144) (by omega)
    have begins := ofLead?_four (UInt8.ofNat (0xF0 + n / 262144)) (by omega) (by omega)
    rw [lead] at begins
    refine ⟨_, _, ?_, ?_, begins, ?_, ?_, ?_⟩
    · simp [continuations, leading, Nat.div_div_eq_div_mul]
    · omega
    · dsimp only [leading]
      omega
    · dsimp only [leading]
      split <;> omega
    · dsimp only [leading]
      split <;> omega

/-- The bytes of a code point other than a surrogate are decoded to it, whatever follows. -/
theorem decodeFrom_encodeValue {n : Nat} (valid : n.isValidChar) (position : Nat)
    (rest : List UInt8) :
    decodeFrom position none (encodeValue n ++ rest) =
      (decodeFrom (position + (encodeValue n).length) none rest).map (Char.ofNat n :: ·) := by
  by_cases ascii : n < 0x80
  · have byte := toNat_ofNat_of_lt (n := n) (by omega)
    simp [encodeValue, ascii, decodeFrom, byte]
  · obtain ⟨lead, pending, bytes, high, begins, awaits⟩ := exists_lead valid ascii
    rw [bytes, List.cons_append, decodeFrom]
    simp only [if_neg high, begins]
    rw [decodeFrom_continuations awaits, List.length_cons, length_continuations,
      Nat.add_right_comm, Nat.add_assoc position]

/-- Decoding undoes encoding. -/
theorem decode_encode (text : List Char) : decode (encode text) = .ok text := by
  suffices all : ∀ position, decodeFrom position none (encode text) = .ok text from all 0
  induction text with
  | nil => intro position; rfl
  | cons c rest ih =>
    intro position
    have step := decodeFrom_encodeValue (n := c.toNat) c.valid position (encode rest)
    rw [Char.ofNat_toNat, ih] at step
    exact step

/-- The wording of a reason. -/
def Reason.message : Reason → String
  | badStart => "invalid start byte"
  | badContinuation => "invalid continuation byte"
  | truncated => "unexpected end of data"

/-- Two lower case hexadecimal digits. -/
def hexByte (byte : UInt8) : String :=
  let digits := Nat.toDigits 16 byte.toNat
  String.ofList (List.replicate (2 - digits.length) '0' ++ digits)

/-- The wording of a fault: a single byte is shown, several are named by their positions. -/
def Fault.message (fault : Fault) : String :=
  let place :=
    if fault.continuations = 0 then
      "byte 0x" ++ hexByte fault.lead ++ " in position " ++ toString fault.position
    else
      "bytes in position " ++ toString fault.position ++ "-" ++
        toString (fault.position + fault.continuations)
  "'utf-8' codec can't decode " ++ place ++ ": " ++ fault.reason.message

end CListing.Utf8
