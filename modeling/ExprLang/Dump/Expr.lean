import ExprLang.Dump.Token
import ExprLang.Expr.Basic
import ExprLang.Expr.Error

set_option autoImplicit false

/-!
Dumps of syntax trees and of the trouble in reading them.
-/

namespace ExprLang

/-- The digits of a natural number to the base 2 ^ 64, the least significant first. -/
def limbs (n : Nat) : List Nat :=
  if _h : n = 0 then [] else n % UInt64.size :: limbs (n / UInt64.size)
termination_by n
decreasing_by exact Nat.div_lt_self (Nat.pos_of_ne_zero _h) (by decide)

/-- A decimal as sign, scale and limbs of its absolute value. -/
def Decimal.dump (d : Decimal) : Dump :=
  let sign := if d.digits = 0 then "NoSign" else if d.digits < 0 then "Minus" else "Plus"
  let digits := Dump.list ((limbs d.digits.natAbs).map fun limb => .word (toString limb))
  .word s!"BigDecimal(sign={sign}, scale={d.scale}, digits={digits.render})"

def Literal.dump : Literal → Dump
  | int n => .apply "Int" [.word (toString n)]
  | dec d => .apply "Dec" [d.dump]
  | str s => .apply "Str" [.word (Text.quote s)]
  | bool b => .apply "Bool" [.word (toString b)]

def Ident.dump (i : Ident) : Dump :=
  .record "Ident" [("name", .word (Text.quote i.name)), ("span", i.span.dump)]

def UnaryOp.dump : UnaryOp → Dump
  | minus => .word "Minus"
  | not => .word "Not"

def BinaryOp.dump : BinaryOp → Dump
  | add => .word "Add"
  | subtract => .word "Subtract"
  | multiply => .word "Multiply"
  | divide => .word "Divide"
  | modulo => .word "Modulo"
  | equal => .word "Equal"
  | greater => .word "GreaterThan"
  | less => .word "LessThan"
  | greaterEqual => .word "GreaterThanEqual"
  | lessEqual => .word "LessThanEqual"
  | and => .word "And"
  | or => .word "Or"
  | index => .word "Index"

def Binding.dump : Binding → Dump
  | var => .word "Var"
  | const => .word "Const"

def Exit.dumpName : Exit → String
  | return_ => "Return"
  | break_ => "Break"

def TypeExpr.dump : TypeExpr → Dump
  | none s => node (.word "None") s
  | int s => node (.word "Int") s
  | dec s => node (.word "Dec") s
  | str s => node (.word "Str") s
  | bool s => node (.word "Bool") s
  | list element s => node (.apply "List" [element.dump]) s
  | map key value s => node (.apply "Map" [key.dump, value.dump]) s
where
  node (kind : Dump) (s : Span) : Dump :=
    .record "TypeExpression" [("kind", kind), ("span", s.dump)]

/-- A node of a tree: its kind, and its place. -/
def Expr.dumpNode (span : Span) (kind : Dump) : Dump :=
  .record "Expression" [("kind", kind), ("span", span.dump)]

mutual

def Expr.dump : Expr → Dump
  | .literal value s => Expr.dumpNode s (.apply "Literal" [value.dump])
  | .list items s => Expr.dumpNode s (.apply "List" [.list (Expr.dumpAll items)])
  | .map entries s => Expr.dumpNode s (.apply "Map" [.list (Expr.dumpEntries entries)])
  | .name ident s => Expr.dumpNode s (.apply "Identifier" [ident.dump])
  | .unary op operand s =>
    Expr.dumpNode s (.record "Unary" [("operator", op.dump), ("rhs", operand.dump)])
  | .binary op lhs rhs s =>
    Expr.dumpNode s (.record "Binary" [("operator", op.dump), ("lhs", lhs.dump), ("rhs", rhs.dump)])
  | .declare declaration s => Expr.dumpNode s (.apply "Declaration" [declaration.dump])
  | .assign target value s =>
    Expr.dumpNode s (.record "Assignment" [("name", target.dump), ("value", value.dump)])
  | .block body s => Expr.dumpNode s (.apply "Block" [body.dump])
  | .cond branches s => Expr.dumpNode s (.apply "If" [branches.dump])
  | .loop vars body s =>
    Expr.dumpNode s (.record "For"
      [("declarations", .list (Declaration.dumpAll vars)), ("body", body.dump)])
  | .exit kind none s => Expr.dumpNode s (.apply kind.dumpName [.option none])
  | .exit kind (some value) s => Expr.dumpNode s (.apply kind.dumpName [.option (some value.dump)])
  | .call callee arguments s =>
    Expr.dumpNode s (.record "Call"
      [("callee", callee.dump), ("arguments", .list (Expr.dumpAll arguments))])

def Expr.dumpAll : List Expr → List Dump
  | [] => []
  | e :: es => e.dump :: Expr.dumpAll es

def Expr.dumpEntries : List (Expr × Expr) → List Dump
  | [] => []
  | (key, value) :: es =>
    .record "MapEntry" [("key", key.dump), ("value", value.dump)] :: Expr.dumpEntries es

def Declaration.dump : Declaration → Dump
  | .mk binding name type value span =>
    .record "Declaration" [("kind", binding.dump), ("name", name.dump), ("value_type", type.dump),
      ("value", value.dump), ("span", span.dump)]

def Declaration.dumpAll : List Declaration → List Dump
  | [] => []
  | d :: ds => d.dump :: Declaration.dumpAll ds

def Block.dump : Block → Dump
  | .mk statements span =>
    .record "Block" [("statements", .list (Expr.dumpAll statements)), ("span", span.dump)]

def Conditional.dump : Conditional → Dump
  | .only condition body =>
    .record "IfExpression" [("condition", condition.dump), ("then", body.dump),
      ("else_branch", .option none)]
  | .withElse condition body otherwise =>
    .record "IfExpression" [("condition", condition.dump), ("then", body.dump),
      ("else_branch", .option (some (.apply "Else" [otherwise.dump])))]
  | .withElseIf condition body next nextSpan =>
    .record "IfExpression" [("condition", condition.dump), ("then", body.dump),
      ("else_branch", .option (some (.apply "ElseIf" [next.dump, nextSpan.dump])))]

end

def SyntaxError.dump (span : Span) : SyntaxError → Dump
  | unexpectedToken actual expected =>
    .record "UnexpectedToken" [("actual", actual.dump), ("expected", expected.dump)]
  | nonExpression actual => .apply "NonExpression" [actual.dump]
  | nonType actual => .apply "NonType" [actual.dump]
  | nonAssignmentOperator actual => .apply "NonAssignmentOperator" [actual.dump]
  | nonDeclaration actual => .apply "NonDeclaration" [actual.dump]
  | unexpectedEof => .word "UnexpectedEof"
  | invalidLiteral lexeme => .apply "InvalidLiteral" [.word (Text.quote lexeme)]
  | tooDeep => .word "TooDeep"
  | lexical error =>
    .apply "LexicalError" [Located.dump "LexicalError" LexicalError.dump ⟨error, span⟩]

end ExprLang
