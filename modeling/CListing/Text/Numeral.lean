import CListing.Text.Trim
import CListing.Unicode.Number

/-!
# Numerals

Reading whole numbers as people type them: an optional sign, then decimal digits of any script,
which single underscores may group; white space around the numeral is ignored. The information
separators, although blanks, do not count as white space here.
-/

namespace CListing.Text

open Unicode

/-- A numeral has at most this many digits. -/
def maxNumeralDigits : Nat :=
  4300

/-- Reads digits after `value`; an underscore must stand between two digits, so it is allowed only
right after one. The result holds the value and the number of digits. -/
def readDigits (value count : Nat) (afterDigit : Bool) : List Char → Option (Nat × Nat)
  | [] => if afterDigit then some (value, count) else none
  | '_' :: rest => if afterDigit then readDigits value count false rest else none
  | c :: rest =>
    match decimalValue? c with
    | some digit => readDigits (10 * value + digit) (count + 1) true rest
    | none => none

/-- The number that digits and underscores stand for. -/
def readNat? (digits : List Char) : Option Nat :=
  match readDigits 0 0 false digits with
  | some (value, count) => if count ≤ maxNumeralDigits then some value else none
  | none => none

/-- White space around a numeral: the blanks without the information separators. -/
def isNumeralPadding (c : Char) : Bool :=
  isBlank c && !(0x1C ≤ c.toNat && c.toNat ≤ 0x1F)

/-- The text without the padding at both ends. -/
def dropPadding (text : List Char) : List Char :=
  ((text.dropWhile isNumeralPadding).reverse.dropWhile isNumeralPadding).reverse

/-- The number that a numeral stands for. -/
def readInt? (text : List Char) : Option Int :=
  match dropPadding text with
  | '-' :: digits => (readNat? digits).map fun n => -(n : Int)
  | '+' :: digits => (readNat? digits).map fun n => (n : Int)
  | digits => (readNat? digits).map fun n => (n : Int)

/-- A minus sign, decimal digits and at most one point among them. A final line feed is ignored. -/
def isNegativeNumeral : List Char → Bool
  | '-' :: rest =>
    let body := if rest.getLast? = some '\n' then rest.dropLast else rest
    match body.dropWhile isDecimal with
    | [] => !body.isEmpty
    | '.' :: decimals => !decimals.isEmpty && decimals.all isDecimal
    | _ => false
  | _ => false

end CListing.Text
