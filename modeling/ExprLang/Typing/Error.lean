import ExprLang.Ty

set_option autoImplicit false

/-!
Why a program is not well typed.
-/

namespace ExprLang

inductive TypeError where
  | mismatchedTypes (expected actual : Ty) (site : String)
  | identifierNotFound (name : String)
  | assignToConstant (name : String)
  | mixedList (expected actual : Ty)
  | mixedMap (expected actual : Ty)
  | notIndexable (type : Ty)
  | invalidIndex (collection index expected : Ty)
  | moduloOperands (lhs rhs : Ty)
  | testOperands (operation : String) (lhs rhs : Ty)
  | notOperand (type : Ty)
  | minusOperand (type : Ty)
  | notComparable (operation : String) (lhs rhs : Ty)
  | invalidOperands (operation : String) (lhs rhs : Ty)
  | nonBoolCondition (type : Ty)
  | branchMismatch (first other : Ty)
  | unknownFunction (name : String)
  | argumentCount (function : String) (actual expected : Nat)
  | invalidArgument (function : String) (actual : Ty)
  | tooDeep
  | exitMismatch (expected actual : Ty)
  deriving DecidableEq

namespace TypeError

def code : TypeError → String
  | mismatchedTypes .. => "TC001"
  | identifierNotFound _ => "TC002"
  | assignToConstant _ => "TC003"
  | mixedList .. => "TC004"
  | mixedMap .. => "TC005"
  | notIndexable _ => "TC006"
  | invalidIndex .. => "TC007"
  | moduloOperands .. => "TC008"
  | testOperands .. => "TC009"
  | notOperand _ => "TC010"
  | minusOperand _ => "TC011"
  | notComparable .. => "TC012"
  | invalidOperands .. => "TC013"
  | nonBoolCondition _ => "TC014"
  | branchMismatch .. => "TC015"
  | unknownFunction _ => "TC016"
  | argumentCount .. => "TC017"
  | invalidArgument .. => "TC018"
  | tooDeep => "TC019"
  | exitMismatch .. => "TC020"

def message : TypeError → String
  | mismatchedTypes expected actual site =>
    s!"mismatched types: got {expected.text} and {actual.text} at {site}"
  | identifierNotFound name => s!"identifier not found: {name}"
  | assignToConstant name => s!"cannot assign to constant: {name}"
  | mixedList expected actual =>
    s!"mixed types in list: expected {expected.text}, got {actual.text}"
  | mixedMap expected actual =>
    s!"mixed types in map: expected {expected.text}, got {actual.text}"
  | notIndexable type => s!"type not indexable: {type.text}"
  | invalidIndex collection index expected =>
    s!"collection {collection.text} is not indexable by {index.text}, expect {expected.text}"
  | moduloOperands lhs rhs => s!"only Int allowed for Mod: got {lhs.text} and {rhs.text}"
  | testOperands operation lhs rhs =>
    s!"operation {operation} only allowed on Bool and Bool: got {lhs.text} and {rhs.text}"
  | notOperand type => s!"operation Not only allowed on Bool: got {type.text}"
  | minusOperand type => s!"operation UnaryMinus only allowed on Int and Dec: got {type.text}"
  | notComparable operation lhs rhs =>
    s!"types are not comparable for {operation}: got {lhs.text} and {rhs.text}"
  | invalidOperands operation lhs rhs =>
    s!"operation {operation} not allowed on {lhs.text} and {rhs.text}"
  | nonBoolCondition type => s!"condition must be Bool: got {type.text}"
  | branchMismatch first other =>
    s!"mismatched branch types: then branch is {first.text}, other branch is {other.text}"
  | unknownFunction name => s!"function `{name}` does not exist"
  | argumentCount function actual expected =>
    s!"incorrect number of arguments for `{function}`: got {actual}, want {expected}"
  | invalidArgument function actual =>
    s!"invalid argument for `{function}`: got {actual.text}"
  | tooDeep => "expression nested too deeply"
  | exitMismatch expected actual =>
    s!"mismatched exit types: expected {expected.text}, got {actual.text}"

end TypeError

end ExprLang
