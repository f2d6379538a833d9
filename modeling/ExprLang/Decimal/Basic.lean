set_option autoImplicit false

/-!
Decimal numbers. A number is kept as an integer of any size and a scale, so one value has many
forms: 2.5 and 2.50 differ in form and are equal as numbers. Sums, differences and comparisons are
exact. Scales have 64 bits: a product is exact as long as its scale fits, and beyond that the scale
wraps.
-/

namespace ExprLang

/-- A power of ten. -/
def pow10 (n : Nat) : Nat :=
  Nat.pow 10 n

/-- The number `digits · 10 ^ (-scale)`. -/
structure Decimal where
  digits : Int
  scale : Int
  deriving DecidableEq, Inhabited

namespace Decimal

def ofInt (n : Int) : Decimal :=
  ⟨n, 0⟩

def zero : Decimal :=
  ofInt 0

def one : Decimal :=
  ofInt 1

/-- The integer in the form of the number that has the given scale, which must not be smaller. -/
def digitsAt (d : Decimal) (scale : Int) : Int :=
  d.digits * pow10 (scale - d.scale).toNat

def isZero (d : Decimal) : Bool :=
  d.digits == 0

def add (a b : Decimal) : Decimal :=
  let scale := max a.scale b.scale
  ⟨a.digitsAt scale + b.digitsAt scale, scale⟩

def sub (a b : Decimal) : Decimal :=
  let scale := max a.scale b.scale
  ⟨a.digitsAt scale - b.digitsAt scale, scale⟩

/-- A scale as it is kept, in 64 bits. -/
def wrapScale (scale : Int) : Int :=
  (Int64.ofInt scale).toInt

def mul (a b : Decimal) : Decimal :=
  ⟨a.digits * b.digits, wrapScale (a.scale + b.scale)⟩

def neg (d : Decimal) : Decimal :=
  ⟨-d.digits, d.scale⟩

/-- The order of the numbers, whatever their forms. -/
def compare (a b : Decimal) : Ordering :=
  let scale := max a.scale b.scale
  Ord.compare (a.digitsAt scale) (b.digitsAt scale)

/-- Equality as numbers. -/
def equal (a b : Decimal) : Bool :=
  a.compare b == .eq

end Decimal

end ExprLang
