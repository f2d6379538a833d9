import ExprLang.Value.Operation

set_option autoImplicit false

/-!
What can go wrong while a program runs. Nothing of it stops the program.
-/

namespace ExprLang

inductive RuntimeError where
  | operation (error : OperationError)
  | identifierNotFound (name : String)
  | assignToConstant (name : String)
  | mismatchedTypes (expected actual : Ty)
  | nonBoolCondition (type : Ty)
  | unknownFunction (name : String)
  | argumentCount (function : String) (actual expected : Nat)
  | tooDeep

namespace RuntimeError

def code : RuntimeError → String
  | operation (.divisionByZero _) => "RT001"
  | operation .moduloByZero => "RT002"
  | operation (.indexOutOfRange ..) => "RT003"
  | operation (.mismatchedTypes ..) => "RT004"
  | operation (.invalidOperand ..) => "RT005"
  | operation (.notIndexable _) => "RT006"
  | identifierNotFound _ => "RT007"
  | assignToConstant _ => "RT008"
  | mismatchedTypes .. => "RT009"
  | nonBoolCondition _ => "RT010"
  | unknownFunction _ => "RT011"
  | argumentCount .. => "RT012"
  | tooDeep => "RT013"

def message : RuntimeError → String
  | operation error => error.message
  | identifierNotFound name => s!"identifier not found: {name}"
  | assignToConstant name => s!"cannot assign to constant: {name}"
  | mismatchedTypes expected actual =>
    s!"mismatched types: got {expected.text} and {actual.text}"
  | nonBoolCondition type => s!"condition must be Bool: got {type.text}"
  | unknownFunction name => s!"function `{name}` does not exist"
  | argumentCount function actual expected =>
    s!"incorrect number of arguments for `{function}`: got {actual}, want {expected}"
  | tooDeep => "expression nested too deeply"

/-- Whether the trouble is a zero divisor. -/
def isArithmetic : RuntimeError → Bool
  | operation (.divisionByZero _) | operation .moduloByZero => true
  | _ => false

end RuntimeError

end ExprLang
