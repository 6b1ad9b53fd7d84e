import CListing.Source.Utf8
import CListing.Text.Quoted
import CListing.Token.Basic

/-!
# Notes for the log

Everything that the log may say about a run: faults of the source, tokens that are missing, and, on
demand, each token that was read. A note holds the facts and its wording is derived from them.
-/

namespace CListing

/-- Why the source ends before its last line. -/
inductive ReadFault
  /-- The next line is not UTF-8. -/
  | undecodable (fault : Utf8.Fault)
  /-- The next line could not be read. -/
  | inputOutput (code : Int) (text : String)
deriving DecidableEq, Repr

/-- The wording of a fault. -/
def ReadFault.message : ReadFault → String
  | undecodable fault => fault.message
  | inputOutput code text => "[Errno " ++ toString code ++ "] " ++ text

/-- An entry of the log. -/
inductive Note
  /-- The given line and all after it are left out. -/
  | readError (line : Nat) (fault : ReadFault)
  /-- The literal that begins in the given line has no closing quote. -/
  | unterminatedLiteral (line : Nat)
  /-- The comment that begins in the given line has no closing mark. -/
  | unterminatedComment (line : Nat)
  /-- The token was read. -/
  | token (token : Token)
  /-- A token of the required category is missing before the token found. -/
  | missing (required : Category) (found : Token)
  /-- The indentation at the end is not what it was at the beginning. -/
  | unbalanced (indentation : Int)
deriving DecidableEq, Repr

/-- The wording of a note. -/
def Note.message : Note → String
  | readError line fault =>
    "Line " ++ toString line ++ ": read error, the rest of the file is not formatted: " ++
      fault.message
  | unterminatedLiteral line => "Line " ++ toString line ++ ": unterminated literal at end of file"
  | unterminatedComment line => "Line " ++ toString line ++ ": unterminated comment at end of file"
  | token found =>
    "TOKEN: line " ++ toString found.line ++ " " ++ found.category.name ++ " " ++
      String.ofList (Text.quoted found.lexeme)
  | missing required found =>
    let place :=
      if found.category = .endOfFile then " at end of file"
      else " before \"" ++ String.ofList found.lexeme ++ "\""
    "Line " ++ toString found.line ++ ": missing " ++ required.name ++ place
  | unbalanced indentation =>
    "Unbalanced braces: indentation is " ++ toString indentation ++ " at end of file"

end CListing
