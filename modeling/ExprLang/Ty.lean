set_option autoImplicit false

/-!
Types of values. A type is a name applied to types; how many arguments a name ought to have is a
matter of being well formed, and not of being a type.
-/

namespace ExprLang

inductive TypeName where
  | none | int | dec | str | bool | list | map
  deriving DecidableEq, Inhabited

namespace TypeName

/-- The number of arguments that the name takes. -/
def arity : TypeName → Nat
  | list => 1
  | map => 2
  | none | int | dec | str | bool => 0

def text : TypeName → String
  | none => "None"
  | int => "Int"
  | dec => "Dec"
  | str => "Str"
  | bool => "Bool"
  | list => "List"
  | map => "Map"

end TypeName

inductive Ty where
  | mk (name : TypeName) (args : List Ty)

namespace Ty

def name : Ty → TypeName
  | mk name _ => name

def args : Ty → List Ty
  | mk _ args => args

@[match_pattern] def none : Ty := mk .none []

@[match_pattern] def int : Ty := mk .int []

@[match_pattern] def dec : Ty := mk .dec []

@[match_pattern] def str : Ty := mk .str []

@[match_pattern] def bool : Ty := mk .bool []

@[match_pattern] def list (element : Ty) : Ty := mk .list [element]

@[match_pattern] def map (key value : Ty) : Ty := mk .map [key, value]

instance : Inhabited Ty := ⟨none⟩

mutual

/-- Equality of names and, in order, of all arguments. -/
def equal : Ty → Ty → Bool
  | mk m as, mk n bs => m == n && equalAll as bs

def equalAll : List Ty → List Ty → Bool
  | [], [] => true
  | a :: as, b :: bs => a.equal b && equalAll as bs
  | [], _ :: _ => false
  | _ :: _, [] => false

end

mutual

theorem equal_iff_eq (a b : Ty) : a.equal b = true ↔ a = b := by
  match a, b with
  | mk m as, mk n bs => simp [equal, equalAll_iff_eq as bs]

theorem equalAll_iff_eq (as bs : List Ty) : equalAll as bs = true ↔ as = bs := by
  match as, bs with
  | [], [] => simp [equalAll]
  | a :: as, b :: bs => simp [equalAll, equal_iff_eq a b, equalAll_iff_eq as bs]
  | [], _ :: _ => simp [equalAll]
  | _ :: _, [] => simp [equalAll]

end

instance : DecidableEq Ty := fun a b => decidable_of_iff _ (equal_iff_eq a b)

mutual

/-- How a type is written in messages: `Int`, `List[Int]`, `Map[Int]Str`. -/
def text : Ty → String
  | mk name [] => name.text
  | mk name [a] => name.text ++ "[" ++ a.text ++ "]"
  | mk name [a, b] => name.text ++ "[" ++ a.text ++ "]" ++ b.text
  | mk name args => name.text ++ "[" ++ textAll args ++ "]"

def textAll : List Ty → String
  | [] => ""
  | [t] => t.text
  | t :: ts => t.text ++ ", " ++ textAll ts

end

/-- Whether both have the same name, whatever their arguments. -/
def isLike (a b : Ty) : Bool :=
  a.name == b.name

def isIndexable (t : Ty) : Bool :=
  t.name == .str || t.name == .list || t.name == .map

/-- Whether values of the type have an order. -/
def isComparable (t : Ty) : Bool :=
  t.name == .int || t.name == .dec || t.name == .str

def isNumeric (t : Ty) : Bool :=
  t.name == .int || t.name == .dec

/-- The type of the elements of a list, and `none` for every other type. -/
def elementType (t : Ty) : Ty :=
  if t.name = .list then t.args[0]?.getD none else none

/-- The type of the keys of a map, and `none` for every other type. -/
def keyType (t : Ty) : Ty :=
  if t.name = .map then t.args[0]?.getD none else none

/-- The type of the values in a map, and `none` for every other type. -/
def valueType (t : Ty) : Ty :=
  if t.name = .map then t.args[1]?.getD none else none

/-- The type of the result when numbers of two types meet. -/
def promote (a b : Ty) : Ty :=
  if a.name = .dec ∨ b.name = .dec then dec else a

end Ty

end ExprLang
