import ExprLang.Text.Bytes

set_option autoImplicit false

/-!
Line numbers of byte offsets. Only a newline ends a line here.
-/

namespace ExprLang.Text

/-- Where the lines after the first one start, for a text that itself starts at `offset`. -/
def laterLineStarts (offset : Nat) : List Char → List Nat
  | [] => []
  | c :: cs =>
    let next := offset + c.utf8Size
    if c = '\n' then next :: laterLineStarts next cs else laterLineStarts next cs

/-- The byte offsets at which lines start, in increasing order. -/
def lineStarts (text : String) : List Nat :=
  0 :: laterLineStarts 0 text.toList

/-- The number of lines; the text after the last newline counts as one, even if it is empty. -/
def lineCount (text : String) : Nat :=
  (lineStarts text).length

/-- The line, counted from one, that an offset lies on. -/
def lineAt (text : String) (offset : Nat) : Nat :=
  ((lineStarts text).filter (· ≤ offset)).length

end ExprLang.Text
