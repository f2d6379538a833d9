import ExprLang.Operator
import ExprLang.Value.Basic

set_option autoImplicit false

/-!
Operations on values, and the ways in which they fail. A failure names the type whose zero stands
in for the result that is missing.
-/

namespace ExprLang

inductive OperationError where
  | divisionByZero (result : Ty)
  | moduloByZero
  | indexOutOfRange (index : Int) (length : Nat) (fallback : Ty)
  | mismatchedTypes (operation : String) (lhs rhs : Ty)
  | invalidOperand (operation : String) (operand : Ty)
  | notIndexable (type : Ty)

namespace OperationError

def message : OperationError → String
  | divisionByZero _ => "division by 0"
  | moduloByZero => "modulo by 0"
  | indexOutOfRange index length _ => s!"index `{index}` out of range for length {length}"
  | mismatchedTypes operation lhs rhs =>
    s!"mismatched types for {operation}: got {lhs.text} and {rhs.text}"
  | invalidOperand operation operand => s!"operation {operation} not allowed on {operand.text}"
  | notIndexable type => s!"type not indexable: {type.text}"

/-- The type of the value that stands in for the result. -/
def fallback : OperationError → Ty
  | divisionByZero result => result
  | moduloByZero => .int
  | indexOutOfRange _ _ fallback => fallback
  | mismatchedTypes .. | invalidOperand .. | notIndexable _ => .none

end OperationError

/-- Takes every occurrence of a text, from left to right, out of another one. -/
def Text.remove (pattern text : List Char) : List Char :=
  match text with
  | [] => []
  | c :: cs =>
    if pattern ≠ [] ∧ pattern.isPrefixOf (c :: cs) then
      remove pattern ((c :: cs).drop pattern.length)
    else
      c :: remove pattern cs
termination_by text.length
decreasing_by
  · have : 0 < pattern.length := List.length_pos_iff.2 (by simp_all)
    simp only [List.length_drop, List.length_cons]
    omega
  · exact Nat.lt_succ_self _

namespace Value

/-- Two numbers on common ground: a decimal turns the other number into one. -/
inductive Numbers where
  | ints (l r : Int)
  | decs (l r : Decimal)

def numbers? : Value → Value → Option Numbers
  | int l, int r => some (.ints l r)
  | int l, dec r => some (.decs (.ofInt l) r)
  | dec l, int r => some (.decs l (.ofInt r))
  | dec l, dec r => some (.decs l r)
  | _, _ => Option.none

private def mismatch {α : Type} (op : BinaryOp) (l r : Value) : Except OperationError α :=
  .error (.mismatchedTypes op.name l.type r.type)

def add (l r : Value) : Except OperationError Value :=
  match numbers? l r with
  | some (.ints m n) => .ok (int (m + n))
  | some (.decs a b) => .ok (dec (a.add b))
  | Option.none =>
    match l, r with
    | str s, str t => .ok (str (s ++ t))
    | list t xs, list u ys => if t = u then .ok (list t (xs ++ ys)) else mismatch .add l r
    | _, _ => mismatch .add l r

/-- Subtraction; it takes out of a text every occurrence of the other text, and out of a list every
item that the other list has. -/
def subtract (l r : Value) : Except OperationError Value :=
  match numbers? l r with
  | some (.ints m n) => .ok (int (m - n))
  | some (.decs a b) => .ok (dec (a.sub b))
  | Option.none =>
    match l, r with
    | str s, str t => .ok (str (String.ofList (Text.remove t.toList s.toList)))
    | list t xs, list u ys =>
      if t = u then .ok (list t (xs.filter fun x => !ys.any (·.equal x)))
      else mismatch .subtract l r
    | _, _ => mismatch .subtract l r

def multiply (l r : Value) : Except OperationError Value :=
  match numbers? l r with
  | some (.ints m n) => .ok (int (m * n))
  | some (.decs a b) => .ok (dec (a.mul b))
  | Option.none => mismatch .multiply l r

/-- Division; of integers it leaves a remainder that is not negative. -/
def divide (l r : Value) : Except OperationError Value :=
  match numbers? l r with
  | some (.ints m n) => if n = 0 then .error (.divisionByZero .int) else .ok (int (m / n))
  | some (.decs a b) => if b.isZero then .error (.divisionByZero .dec) else .ok (dec (a.div b))
  | Option.none => mismatch .divide l r

/-- The remainder of integers, at least zero and below the absolute value of the divisor. -/
def modulo : Value → Value → Except OperationError Value
  | int m, int n => if n = 0 then .error .moduloByZero else .ok (int (m % n))
  | l, r => mismatch .modulo l r

def negate : Value → Except OperationError Value
  | int n => .ok (int (-n))
  | dec d => .ok (dec d.neg)
  | v => .error (.invalidOperand UnaryOp.minus.name v.type)

def not : Value → Except OperationError Value
  | bool b => .ok (bool !b)
  | v => .error (.invalidOperand UnaryOp.not.name v.type)

/-- The order of two numbers, or of two texts by code points. -/
def compare (op : BinaryOp) (l r : Value) : Except OperationError Ordering :=
  match numbers? l r with
  | some (.ints m n) => .ok (Ord.compare m n)
  | some (.decs a b) => .ok (a.compare b)
  | Option.none =>
    match l, r with
    | str s, str t => .ok (Ord.compare s t)
    | _, _ => mismatch op l r

/-- The item of a list at a position, counted from zero; none before the start or past the end. -/
def at? {α : Type} (items : List α) (position : Int) : Option α :=
  match position with
  | .ofNat n => items[n]?
  | .negSucc _ => Option.none

/-- Indexing; a key that a map does not have reads as the zero of its value type. -/
def index : Value → Value → Except OperationError Value
  | str s, int position =>
    match at? s.toList position with
    | some c => .ok (str (String.ofList [c]))
    | Option.none => .error (.indexOutOfRange position s.length .str)
  | list element items, int position =>
    match at? items position with
    | some v => .ok v
    | Option.none => .error (.indexOutOfRange position items.length element)
  | map _ value entries, key => .ok ((lookup entries key).getD value.zero)
  | str s, r => mismatch .index (str s) r
  | list element items, r => mismatch .index (list element items) r
  | l, _ => .error (.notIndexable l.type)

/-- The number of characters, items or entries. -/
def len : Value → Except OperationError Nat
  | str s => .ok s.length
  | list _ items => .ok items.length
  | map _ _ entries => .ok entries.length
  | v => .error (.invalidOperand "len" v.type)

end Value

end ExprLang
