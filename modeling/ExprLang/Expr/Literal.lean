import ExprLang.Expr.Basic
import ExprLang.Token.Escape

set_option autoImplicit false

/-!
The values that literals denote.
-/

namespace ExprLang.Literal

/-- The number that a row of digits denotes. -/
def digitsValue (digits : List Char) : Nat :=
  digits.foldl (fun n d => 10 * n + (d.toNat - '0'.toNat)) 0

/-- Whether a text is a row of digits, at least one. -/
def isNumeral (cs : List Char) : Bool :=
  !cs.isEmpty && cs.all Char.isDigit

/-- The integer that a lexeme denotes. -/
def int? (lexeme : String) : Option Int :=
  let digits := lexeme.toList
  if isNumeral digits then some (digitsValue digits) else none

/-- The decimal that a lexeme denotes: its scale is the number of digits after the point. -/
def dec? (lexeme : String) : Option Decimal :=
  let whole := lexeme.toList.takeWhile (· ≠ '.')
  let fraction := (lexeme.toList.dropWhile (· ≠ '.')).drop 1
  if isNumeral whole && isNumeral fraction then
    some ⟨digitsValue (whole ++ fraction), fraction.length⟩
  else
    none

end ExprLang.Literal
