import ExprLang.Decimal.Written
import ExprLang.Expr.Basic
import ExprLang.Text.Quoted

set_option autoImplicit false

/-!
Syntax trees written back as source: one statement a line, blocks indented, and every operator with
brackets around it.
-/

namespace ExprLang

def Literal.source : Literal → String
  | int n => toString n
  | dec d => d.literal
  | str s => Text.quote s
  | bool b => toString b

def TypeExpr.source : TypeExpr → String
  | none _ => "none"
  | int _ => "int"
  | dec _ => "dec"
  | str _ => "str"
  | bool _ => "bool"
  | list element _ => "list[" ++ element.source ++ "]"
  | map key value _ => "map[" ++ key.source ++ "]" ++ value.source

def Exit.keyword : Exit → String
  | return_ => "return"
  | break_ => "break"

/-- The operator between two operands. -/
def BinaryOp.between : BinaryOp → String
  | index => "_"
  | op => " " ++ op.symbol ++ " "

/-- The operator in front of its operand. -/
def UnaryOp.before : UnaryOp → String
  | minus => "-"
  | not => "not "

/-- White space in front of a line inside `depth` blocks. -/
def indent (depth : Nat) : String :=
  "".pushn ' ' (4 * depth)

mutual

/-- The source of an expression that stands inside `depth` blocks. -/
def Expr.sourceAt (depth : Nat) : Expr → String
  | .literal value _ => value.source
  | .list items _ => "[" ++ Expr.sourceAll depth items ++ "]"
  | .map entries _ => "<|" ++ Expr.sourceEntries depth entries ++ "|>"
  | .name ident _ => ident.name
  | .unary op operand _ => "(" ++ op.before ++ operand.sourceAt depth ++ ")"
  | .binary op lhs rhs _ =>
    "(" ++ lhs.sourceAt depth ++ op.between ++ rhs.sourceAt depth ++ ")"
  | .declare declaration _ => declaration.sourceAt depth
  | .assign target value _ => "set " ++ target.name ++ " is " ++ value.sourceAt depth
  | .block body _ => body.sourceAt depth
  | .cond branches _ => branches.sourceAt depth
  | .loop vars body _ =>
    "for " ++ Declaration.sourceAll depth vars ++ " " ++ body.sourceAt depth
  | .exit kind none _ => kind.keyword
  | .exit kind (some value) _ => kind.keyword ++ " " ++ value.sourceAt depth
  | .call callee arguments _ => callee.name ++ "(" ++ Expr.sourceAll depth arguments ++ ")"

def Expr.sourceAll (depth : Nat) : List Expr → String
  | [] => ""
  | [e] => e.sourceAt depth
  | e :: es => e.sourceAt depth ++ ", " ++ Expr.sourceAll depth es

def Expr.sourceEntries (depth : Nat) : List (Expr × Expr) → String
  | [] => ""
  | [(key, value)] => key.sourceAt depth ++ ": " ++ value.sourceAt depth
  | (key, value) :: es =>
    key.sourceAt depth ++ ": " ++ value.sourceAt depth ++ ", " ++ Expr.sourceEntries depth es

def Declaration.sourceAt (depth : Nat) : Declaration → String
  | .mk binding name type value _ =>
    binding.text ++ " " ++ name.name ++ " " ++ type.source ++ " is " ++ value.sourceAt depth

def Declaration.sourceAll (depth : Nat) : List Declaration → String
  | [] => ""
  | [d] => d.sourceAt depth
  | d :: ds => d.sourceAt depth ++ ", " ++ Declaration.sourceAll depth ds

def Block.sourceAt (depth : Nat) : Block → String
  | .mk [] _ => "\x7b\x7d"
  | .mk statements _ =>
    "\x7b\n" ++ Expr.sourceLines (depth + 1) statements ++ indent depth ++ "\x7d"

def Expr.sourceLines (depth : Nat) : List Expr → String
  | [] => ""
  | e :: es => indent depth ++ e.sourceAt depth ++ ";\n" ++ Expr.sourceLines depth es

def Conditional.sourceAt (depth : Nat) : Conditional → String
  | .only condition body => "if " ++ condition.sourceAt depth ++ " then " ++ body.sourceAt depth
  | .withElse condition body otherwise =>
    "if " ++ condition.sourceAt depth ++ " then " ++ body.sourceAt depth ++ " else "
      ++ otherwise.sourceAt depth
  | .withElseIf condition body next _ =>
    "if " ++ condition.sourceAt depth ++ " then " ++ body.sourceAt depth ++ " else "
      ++ next.sourceAt depth

end

/-- The source of an expression that stands alone. -/
def Expr.source (e : Expr) : String :=
  e.sourceAt 0

def Declaration.source (d : Declaration) : String :=
  d.sourceAt 0

/-- The source of a program. -/
def Program.source (p : Program) : String :=
  Expr.sourceLines 0 p

end ExprLang
