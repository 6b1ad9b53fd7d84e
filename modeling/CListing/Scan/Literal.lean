import CListing.Scan.Cut

/-!
# Literals and comments

A literal ends at the first quote of its kind that no backslash takes along; a backslash takes the
character after it whatever it is, line feeds included. A block comment ends at the first closing
mark. Both are open if the text ends first.
-/

namespace CListing

/-- The part of a literal after its opening quote. -/
def literalTail (quote : Char) : List Char → Cut
  | [] => { extent := [], rest := [], closed := false }
  | '\\' :: c :: rest => ((literalTail quote rest).push c).push '\\'
  | c :: rest =>
    if c = quote then { extent := [c], rest := rest }
    else (literalTail quote rest).push c

/-- The part of a block comment after its opening mark. -/
def commentTail : List Char → Cut
  | [] => { extent := [], rest := [], closed := false }
  | '*' :: '/' :: rest => { extent := ['*', '/'], rest := rest }
  | c :: rest => (commentTail rest).push c

/-- The block comment at the head of a text that begins with its two opening marks. -/
def commentCut : List Char → Cut
  | slash :: star :: rest => ((commentTail rest).push star).push slash
  | text => { extent := text, rest := [] }

@[simp]
theorem text_literalTail (quote : Char) (text : List Char) :
    (literalTail quote text).text = text := by
  fun_induction literalTail quote text with
  | case1 => rfl
  | case2 c rest ih => simp [ih]
  | case3 => rfl
  | case4 c rest _ _ ih => simp [ih]

@[simp]
theorem text_commentTail (text : List Char) : (commentTail text).text = text := by
  fun_induction commentTail text with
  | case1 => rfl
  | case2 => rfl
  | case3 c rest _ ih => simp [ih]

@[simp]
theorem text_commentCut (text : List Char) : (commentCut text).text = text := by
  match text with
  | [] => rfl
  | [_] => rfl
  | slash :: star :: rest => simp [commentCut]

end CListing
