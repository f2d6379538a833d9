import ExprLang.Dump.Expr
import ExprLang.Eval.Error
import ExprLang.Typing.Error

set_option autoImplicit false

/-!
Dumps of types, and of the trouble that the checker and the evaluator find.
-/

namespace ExprLang

mutual

def Ty.dump : Ty → Dump
  | .mk name args =>
    .record "ValueType" [("name", .word name.text), ("type_args", .list (Ty.dumpAll args))]

def Ty.dumpAll : List Ty → List Dump
  | [] => []
  | t :: ts => t.dump :: Ty.dumpAll ts

end

/-- A text in quotes. -/
def Dump.quoted (s : String) : Dump :=
  .word (Text.quote s)

def TypeError.dump : TypeError → Dump
  | mismatchedTypes expected actual site =>
    .record "MismatchedTypes"
      [("expected", expected.dump), ("actual", actual.dump), ("at", .quoted site)]
  | identifierNotFound name => .apply "IdentifierNotFound" [.quoted name]
  | assignToConstant name => .apply "AssignToConstant" [.quoted name]
  | mixedList expected actual =>
    .record "MixedList" [("expected", expected.dump), ("actual", actual.dump)]
  | mixedMap expected actual =>
    .record "MixedMap" [("expected", expected.dump), ("actual", actual.dump)]
  | notIndexable type => .apply "NotIndexable" [type.dump]
  | invalidIndex collection index expected =>
    .record "InvalidIndex"
      [("collection", collection.dump), ("index", index.dump), ("expected", expected.dump)]
  | moduloOperands lhs rhs => .record "ModuloOperands" [("lhs", lhs.dump), ("rhs", rhs.dump)]
  | testOperands operation lhs rhs => operands "TestOperands" operation lhs rhs
  | notOperand type => .apply "NotOperand" [type.dump]
  | minusOperand type => .apply "MinusOperand" [type.dump]
  | notComparable operation lhs rhs => operands "NotComparable" operation lhs rhs
  | invalidOperands operation lhs rhs => operands "InvalidOperands" operation lhs rhs
  | nonBoolCondition type => .apply "NonBoolCondition" [type.dump]
  | branchMismatch first other =>
    .record "BranchMismatch" [("then", first.dump), ("other", other.dump)]
  | unknownFunction name => .apply "UnknownFunction" [.quoted name]
  | argumentCount function actual expected =>
    .record "ArgumentCount" [("function", .quoted function), ("actual", .word (toString actual)),
      ("expected", .word (toString expected))]
  | invalidArgument function actual =>
    .record "InvalidArgument" [("function", .quoted function), ("actual", actual.dump)]
  | tooDeep => .word "TooDeep"
  | exitMismatch expected actual =>
    .record "ExitMismatch" [("expected", expected.dump), ("actual", actual.dump)]
where
  operands (head operation : String) (lhs rhs : Ty) : Dump :=
    .record head [("operation", .quoted operation), ("lhs", lhs.dump), ("rhs", rhs.dump)]

def OperationError.dump : OperationError → Dump
  | divisionByZero result => .apply "DivisionByZero" [result.dump]
  | moduloByZero => .word "ModuloByZero"
  | indexOutOfRange index length fallback =>
    .record "IndexOutOfRange" [("index", .word (toString index)),
      ("length", .word (toString length)), ("fallback", fallback.dump)]
  | mismatchedTypes operation lhs rhs =>
    .record "MismatchedTypes"
      [("operation", .quoted operation), ("lhs", lhs.dump), ("rhs", rhs.dump)]
  | invalidOperand operation operand =>
    .record "InvalidOperand" [("operation", .quoted operation), ("operand", operand.dump)]
  | notIndexable type => .apply "NotIndexable" [type.dump]

def RuntimeError.dump : RuntimeError → Dump
  | operation error => .apply "Operation" [error.dump]
  | identifierNotFound name => .apply "IdentifierNotFound" [.quoted name]
  | assignToConstant name => .apply "AssignToConstant" [.quoted name]
  | mismatchedTypes expected actual =>
    .record "MismatchedTypes" [("expected", expected.dump), ("actual", actual.dump)]
  | nonBoolCondition type => .apply "NonBoolCondition" [type.dump]
  | unknownFunction name => .apply "UnknownFunction" [.quoted name]
  | argumentCount function actual expected =>
    .record "ArgumentCount" [("function", .quoted function), ("actual", .word (toString actual)),
      ("expected", .word (toString expected))]
  | tooDeep => .word "TooDeep"

end ExprLang
