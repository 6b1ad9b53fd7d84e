import CListing.Unicode.Printable

/-!
# Quoted text

A text is shown between quotes in printable characters only. Quotes, the backslash and the common
controls have short escapes; every other character that cannot be printed is written as its code
in two, four or eight hexadecimal digits, whichever is the least that holds it.
-/

namespace CListing.Text

open Unicode

/-- The lower case hexadecimal digits of `n`, padded with zeros on the left to `width`. -/
def hexDigits (width n : Nat) : List Char :=
  let digits := Nat.toDigits 16 n
  List.replicate (width - digits.length) '0' ++ digits

/-- The escape of a character by its code. -/
def codeEscape (n : Nat) : List Char :=
  if n < 0x100 then '\\' :: 'x' :: hexDigits 2 n
  else if n < 0x10000 then '\\' :: 'u' :: hexDigits 4 n
  else '\\' :: 'U' :: hexDigits 8 n

/-- How a character is written between quotes of the given kind. -/
def quotedChar (quote c : Char) : List Char :=
  if c = quote || c = '\\' then ['\\', c]
  else if c = '\n' then ['\\', 'n']
  else if c = '\r' then ['\\', 'r']
  else if c = '\t' then ['\\', 't']
  else if c.toNat < 0x20 || c.toNat = 0x7F then codeEscape c.toNat
  else if c.toNat < 0x7F || isPrintableForeign c then [c]
  else codeEscape c.toNat

/-- Single quotes, unless the text holds single quotes and no double ones. -/
def quoteFor (text : List Char) : Char :=
  if text.contains '\'' && !text.contains '"' then '"' else '\''

/-- The text between quotes. -/
def quoted (text : List Char) : List Char :=
  let quote := quoteFor text
  quote :: text.flatMap (quotedChar quote) ++ [quote]

/-- The quotes are not found in the text, unless it holds both kinds. -/
theorem quoteFor_eq_double_iff (text : List Char) :
    quoteFor text = '"' ↔ '\'' ∈ text ∧ '"' ∉ text := by
  by_cases single : '\'' ∈ text <;> by_cases double : '"' ∈ text <;>
    simp [quoteFor, single, double]

end CListing.Text
