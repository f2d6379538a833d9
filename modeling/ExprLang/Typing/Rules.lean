import ExprLang.Builtin
import ExprLang.Operator
import ExprLang.Typing.Error

set_option autoImplicit false

/-!
The typing rules of operators and of calls. A rule always gives a type to go on with; with a
complaint the type is a guess.
-/

namespace ExprLang

/-- What a rule decides. -/
structure Verdict where
  type : Ty
  complaint : Option TypeError

namespace Verdict

def accept (type : Ty) : Verdict := ⟨type, none⟩

def reject (type : Ty) (complaint : TypeError) : Verdict := ⟨type, some complaint⟩

end Verdict

def UnaryOp.verdict (op : UnaryOp) (operand : Ty) : Verdict :=
  match op with
  | .minus => if operand.isNumeric then .accept operand else .reject .none (.minusOperand operand)
  | .not => if operand.name = .bool then .accept .bool else .reject .bool (.notOperand operand)

/-- Indexing takes a position in a text or a list, or a key of a map. -/
def Ty.indexVerdict (collection index : Ty) : Verdict :=
  let item (expected result : Ty) : Verdict :=
    if index = expected then .accept result
    else .reject result (.invalidIndex collection index expected)
  match collection.name with
  | .str => item .int .str
  | .list => item .int collection.elementType
  | .map => item collection.keyType collection.valueType
  | _ => .reject .none (.notIndexable collection)

/-- The rule of an operator between operands of two types. The text of the whole operation is
asked for only if a complaint quotes it. -/
def BinaryOp.verdict (op : BinaryOp) (lhs rhs : Ty) (site : Unit → String) : Verdict :=
  match op with
  | .and | .or =>
    if lhs.name = .bool ∧ rhs.name = .bool then .accept .bool
    else .reject .bool (.testOperands op.name lhs rhs)
  | .equal =>
    if lhs = rhs then .accept .bool else .reject .bool (.mismatchedTypes lhs rhs (site ()))
  | .greater | .less | .greaterEqual | .lessEqual =>
    if lhs ≠ rhs then .reject .bool (.mismatchedTypes lhs rhs (site ()))
    else if lhs.isComparable then .accept .bool
    else .reject .bool (.notComparable op.name lhs rhs)
  | .add | .subtract =>
    if lhs.isNumeric && rhs.isNumeric then .accept (lhs.promote rhs)
    else if lhs.name = .str ∧ rhs.name = .str then .accept lhs
    else if lhs.name = .list ∧ lhs = rhs then .accept lhs
    else .reject .none (.invalidOperands op.name lhs rhs)
  | .multiply | .divide =>
    if lhs.isNumeric && rhs.isNumeric then .accept (lhs.promote rhs)
    else .reject .none (.invalidOperands op.name lhs rhs)
  | .modulo =>
    if lhs.name = .int ∧ rhs.name = .int then .accept lhs
    else .reject .none (.moduloOperands lhs rhs)
  | .index => lhs.indexVerdict rhs

def Builtin.verdict (f : Builtin) (arguments : List Ty) : Verdict :=
  match f with
  | .print | .println => .accept .none
  | .len =>
    match arguments with
    | [t] =>
      if t.isIndexable then .accept .int else .reject .none (.invalidArgument f.name t)
    | _ => .reject .none (.argumentCount f.name arguments.length 1)

end ExprLang
