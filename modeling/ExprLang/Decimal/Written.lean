import ExprLang.Decimal.Division

set_option autoImplicit false

/-!
Decimals in writing. Values are written plainly, without an exponent and without zeros at the end;
literals keep the digits they were given, and turn to scientific notation when many zeros would
stand between the point and the first digit.
-/

namespace ExprLang.Decimal

/-- Drops zeros from the end of a number that is not zero. -/
def dropZeros (digits : Nat) (scale : Int) : Nat × Int :=
  if digits = 0 ∨ digits % 10 ≠ 0 then (digits, scale) else dropZeros (digits / 10) (scale - 1)

/-- The form of a number with the fewest digits. -/
def normalize (d : Decimal) : Decimal :=
  if d.digits = 0 then zero
  else
    let (digits, scale) := dropZeros d.digits.natAbs d.scale
    ⟨d.digits.sign * digits, scale⟩

/-- The digits of a natural number with a point before the last `scale` of them, and zeros where
there are too few. -/
def pointed (digits : Nat) (scale : Int) : List Char :=
  let text := Nat.toDigits 10 digits
  if scale ≤ 0 then text ++ List.replicate scale.natAbs '0'
  else
    let places := scale.toNat
    if places < text.length then
      text.take (text.length - places) ++ '.' :: text.drop (text.length - places)
    else
      '0' :: '.' :: List.replicate (places - text.length) '0' ++ text

/-- The sign of a number in writing. -/
def signText (d : Decimal) : List Char :=
  if d.digits < 0 then ['-'] else []

/-- The number as values of the language are printed. -/
def plain (d : Decimal) : String :=
  let n := d.normalize
  String.ofList (n.signText ++ pointed n.digits.natAbs n.scale)

/-- The first digit, a point before the others if there are any, and the power of ten. -/
def scientific (digits : Nat) (scale : Int) : List Char :=
  let text := Nat.toDigits 10 digits
  let mantissa := match text with
    | first :: second :: rest => first :: '.' :: second :: rest
    | _ => text
  let exponent : Int := text.length - 1 - scale
  mantissa ++ 'E' :: (toString exponent).toList

/-- The number as a literal is written: scientific if more than five zeros would follow the
point. -/
def literal (d : Decimal) : String :=
  if d.digits = 0 then "0"
  else
    let digits := d.digits.natAbs
    let body := if d.scale - digitCount digits > 5 then scientific digits d.scale
      else pointed digits d.scale
    String.ofList (d.signText ++ body)

end ExprLang.Decimal
