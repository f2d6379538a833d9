import ExprLang.Decimal.Basic

set_option autoImplicit false

/-!
Division of decimals. A quotient is first taken to a hundred significant digits, half up, and then
cut to sixteen; a positive number is rounded half up by the cut, a negative one towards zero.
-/

namespace ExprLang

/-- The number of decimal digits of a natural number; zero has one. -/
def digitCount (n : Nat) : Nat :=
  if n < 10 then 1 else digitCount (n / 10) + 1

namespace Decimal

/-- The least power of ten that lifts `num`, not zero, to at least `den`. -/
def liftTo (num den : Nat) : Nat :=
  let gap := digitCount den - digitCount num
  if num * pow10 gap < den then gap + 1 else gap

/-- The quotient of two positive integers to at least `precision` significant digits, half up. The
second part is the number of digits after the point. -/
def longDivision (precision num den : Nat) : Nat × Nat :=
  let lift := liftTo num den
  let more := precision - digitCount (num * pow10 lift / den)
  let lifted := num * pow10 (lift + more)
  let next := lifted % den * 10 / den
  (lifted / den + if 5 ≤ next then 1 else 0, lift + more)

/-- The quotient to a hundred significant digits. -/
def quotient (l r : Decimal) : Decimal :=
  if l.isZero || r.equal one then l
  else if l.digits = r.digits then ⟨1, l.scale - r.scale⟩
  else
    let (digits, places) := longDivision 100 l.digits.natAbs r.digits.natAbs
    ⟨l.digits.sign * r.digits.sign * digits, l.scale - r.scale + places⟩

/-- The form of a number with the given count of digits. Digits that are dropped round a positive
number half up and leave a negative one as it is. -/
def withDigits (count : Nat) (d : Decimal) : Decimal :=
  let present := digitCount d.digits.natAbs
  if count < present then
    let unit := pow10 (present - count)
    let dropped := d.digits.tmod unit
    ⟨d.digits.tdiv unit + (if unit ≤ 2 * dropped then 1 else 0), d.scale - (present - count : Nat)⟩
  else
    ⟨d.digits * pow10 (count - present), d.scale + (count - present : Nat)⟩

/-- The quotient of two numbers, the second not zero, in sixteen digits. -/
def div (l r : Decimal) : Decimal :=
  (quotient l r).withDigits 16

end Decimal

end ExprLang
