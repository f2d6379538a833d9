import ExprLang.Decimal.Written
import ExprLang.Ty

set_option autoImplicit false

/-!
Values of the language. Lists and maps carry the types of what they hold; a map keeps its entries
in the order in which their keys first came.
-/

namespace ExprLang

inductive Value where
  | none
  | int (n : Int)
  | dec (d : Decimal)
  | str (s : String)
  | bool (b : Bool)
  | list (element : Ty) (items : List Value)
  | map (key value : Ty) (entries : List (Value × Value))

namespace Value

instance : Inhabited Value := ⟨none⟩

def type : Value → Ty
  | none => .none
  | int _ => .int
  | dec _ => .dec
  | str _ => .str
  | bool _ => .bool
  | list element _ => .list element
  | map key value _ => .map key value

mutual

/-- Equality of what values hold: numbers as numbers, lists item by item, and maps entry by entry
in any order. -/
def same : Value → Value → Bool
  | none, none => true
  | int m, int n => m == n
  | dec a, dec b => a.equal b
  | str s, str t => s == t
  | bool a, bool b => a == b
  | list t xs, list u ys => t == u && sameItems xs ys
  | map k v es, map k' v' fs => k == k' && v == v' && es.length == fs.length && foundIn es fs
  | _, _ => false

def sameItems : List Value → List Value → Bool
  | [], [] => true
  | x :: xs, y :: ys => x.same y && sameItems xs ys
  | _, _ => false

/-- Whether each entry of the first map has its key, with the same value, in the second. -/
def foundIn : List (Value × Value) → List (Value × Value) → Bool
  | [], _ => true
  | (k, v) :: es, fs =>
    (match fs.find? fun f => k.same f.1 with
      | some f => v.same f.2
      | Option.none => false) && foundIn es fs

end

instance : BEq Value := ⟨same⟩

/-- Equality of values: of one type, and the same in what they hold. -/
def equal (a b : Value) : Bool :=
  a.type == b.type && a == b

mutual

/-- The text that printing a value writes. -/
def render : Value → String
  | none => "none"
  | int n => toString n
  | dec d => d.plain
  | str s => s
  | bool b => toString b
  | list _ items => "[" ++ renderItems items ++ "]"
  | map _ _ entries => "<|" ++ renderEntries entries ++ "|>"

def renderItems : List Value → String
  | [] => ""
  | v :: vs => v.render ++ "," ++ renderItems vs

def renderEntries : List (Value × Value) → String
  | [] => ""
  | (k, v) :: es => k.render ++ ":" ++ v.render ++ "," ++ renderEntries es

end

/-- The value that an entry for the key holds. -/
def lookup (entries : List (Value × Value)) (key : Value) : Option Value :=
  (entries.find? fun e => e.1.equal key).map Prod.snd

/-- Enters a value under a key. A key that is there keeps its place and its form. -/
def insert (key value : Value) : List (Value × Value) → List (Value × Value)
  | [] => [(key, value)]
  | (k, v) :: es => if k.equal key then (k, value) :: es else (k, v) :: insert key value es

/-- The map of the given types that holds the pairs, entered one after the other. -/
def mapOfPairs (key value : Ty) (pairs : List (Value × Value)) : Value :=
  map key value (pairs.foldl (fun entries pair => insert pair.1 pair.2 entries) [])

end Value

/-- The value that a type has by default. -/
def Ty.zero (t : Ty) : Value :=
  match t.name with
  | .none => .none
  | .int => .int 0
  | .dec => .dec .zero
  | .str => .str ""
  | .bool => .bool false
  | .list => .list t.elementType []
  | .map => .map t.keyType t.valueType []

end ExprLang
