set_option autoImplicit false

/-!
The operators of the language, how strongly they bind, and their names.
-/

namespace ExprLang

inductive BinaryOp where
  | add | subtract | multiply | divide | modulo
  | equal | greater | less | greaterEqual | lessEqual
  | and | or
  | index
  deriving DecidableEq, Inhabited

namespace BinaryOp

/-- How the operator is written. -/
def symbol : BinaryOp → String
  | add => "+"
  | subtract => "-"
  | multiply => "*"
  | divide => "/"
  | modulo => "%"
  | equal => "="
  | greater => ">"
  | less => "<"
  | greaterEqual => ">="
  | lessEqual => "<="
  | and => "and"
  | or => "or"
  | index => "_"

/-- The name of the operation in messages. -/
def name : BinaryOp → String
  | add => "Add"
  | subtract => "Sub"
  | multiply => "Mul"
  | divide => "Div"
  | modulo => "Mod"
  | equal => "Equal"
  | greater => "Greater"
  | less => "Less"
  | greaterEqual => "GreaterEqual"
  | lessEqual => "LessEqual"
  | and => "And"
  | or => "Or"
  | index => "Indexing"

/-- How strongly the operator binds the operand on its left. -/
def leftPower : BinaryOp → Nat
  | or => 3
  | and => 5
  | equal | greater | less | greaterEqual | lessEqual => 9
  | add | subtract => 11
  | multiply | divide | modulo => 13
  | index => 17

/-- How strongly it binds the operand on its right: one more, so that equals group to the left. -/
def rightPower (op : BinaryOp) : Nat :=
  op.leftPower + 1

def isArithmetic : BinaryOp → Bool
  | add | subtract | multiply | divide | modulo => true
  | _ => false

def isComparison : BinaryOp → Bool
  | equal | greater | less | greaterEqual | lessEqual => true
  | _ => false

def isTest : BinaryOp → Bool
  | and | or => true
  | _ => false

end BinaryOp

inductive UnaryOp where
  | minus | not
  deriving DecidableEq, Inhabited

namespace UnaryOp

/-- How the operator is written. -/
def symbol : UnaryOp → String
  | minus => "-"
  | not => "not"

/-- The name of the operation in messages. -/
def name : UnaryOp → String
  | minus => "UnaryMinus"
  | not => "Not"

/-- How strongly the operator binds its operand. -/
def power : UnaryOp → Nat
  | minus => 15
  | not => 7

end UnaryOp

end ExprLang
