import ExprLang.Control
import ExprLang.Decimal.Basic
import ExprLang.Operator
import ExprLang.Scope
import ExprLang.Span
import ExprLang.Ty

set_option autoImplicit false

/-!
Syntax trees. Statements are expressions too. Every node knows the stretch of source it was read
from; brackets around an expression widen its span and leave no other trace.
-/

namespace ExprLang

/-- A name where it is written. -/
structure Ident where
  name : String
  span : Span
  deriving DecidableEq

inductive Literal where
  | int (n : Int)
  | dec (d : Decimal)
  | str (s : String)
  | bool (b : Bool)
  deriving DecidableEq

/-- A type where it is written. -/
inductive TypeExpr where
  | none (span : Span)
  | int (span : Span)
  | dec (span : Span)
  | str (span : Span)
  | bool (span : Span)
  | list (element : TypeExpr) (span : Span)
  | map (key value : TypeExpr) (span : Span)
  deriving DecidableEq

namespace TypeExpr

def span : TypeExpr → Span
  | none s | int s | dec s | str s | bool s | list _ s | map _ _ s => s

/-- The type that is written. -/
def type : TypeExpr → Ty
  | none _ => .none
  | int _ => .int
  | dec _ => .dec
  | str _ => .str
  | bool _ => .bool
  | list element _ => .list element.type
  | map key value _ => .map key.type value.type

end TypeExpr

mutual

inductive Expr where
  | literal (value : Literal) (span : Span)
  | list (items : List Expr) (span : Span)
  | map (entries : List (Expr × Expr)) (span : Span)
  | name (ident : Ident) (span : Span)
  | unary (op : UnaryOp) (operand : Expr) (span : Span)
  | binary (op : BinaryOp) (lhs rhs : Expr) (span : Span)
  | declare (declaration : Declaration) (span : Span)
  | assign (target : Ident) (value : Expr) (span : Span)
  | block (body : Block) (span : Span)
  | cond (branches : Conditional) (span : Span)
  | loop (vars : List Declaration) (body : Block) (span : Span)
  | exit (kind : Exit) (value : Option Expr) (span : Span)
  | call (callee : Ident) (arguments : List Expr) (span : Span)

inductive Declaration where
  | mk (binding : Binding) (name : Ident) (type : TypeExpr) (value : Expr) (span : Span)

inductive Block where
  | mk (statements : List Expr) (span : Span)

/-- A condition with the block it guards, and what follows if it does not hold: nothing, a block,
or another condition, whose own span is kept. -/
inductive Conditional where
  | only (condition : Expr) (body : Block)
  | withElse (condition : Expr) (body : Block) (otherwise : Block)
  | withElseIf (condition : Expr) (body : Block) (next : Conditional) (nextSpan : Span)

end

namespace Expr

def span : Expr → Span
  | literal _ s | list _ s | map _ s | name _ s | unary _ _ s | binary _ _ _ s | declare _ s
  | assign _ _ s | block _ s | cond _ s | loop _ _ s | exit _ _ s | call _ _ s => s

/-- The same expression with another span. -/
def withSpan (e : Expr) (s : Span) : Expr :=
  match e with
  | literal v _ => literal v s
  | list items _ => list items s
  | map entries _ => map entries s
  | name ident _ => name ident s
  | unary op operand _ => unary op operand s
  | binary op lhs rhs _ => binary op lhs rhs s
  | declare d _ => declare d s
  | assign target value _ => assign target value s
  | block body _ => block body s
  | cond branches _ => cond branches s
  | loop vars body _ => loop vars body s
  | exit kind value _ => exit kind value s
  | call callee arguments _ => call callee arguments s

@[simp] theorem span_withSpan (e : Expr) (s : Span) : (e.withSpan s).span = s := by
  cases e <;> rfl

end Expr

namespace Declaration

def binding : Declaration → Binding
  | mk b _ _ _ _ => b

def name : Declaration → Ident
  | mk _ n _ _ _ => n

def type : Declaration → TypeExpr
  | mk _ _ t _ _ => t

def value : Declaration → Expr
  | mk _ _ _ v _ => v

def span : Declaration → Span
  | mk _ _ _ _ s => s

end Declaration

namespace Block

def statements : Block → List Expr
  | mk b _ => b

def span : Block → Span
  | mk _ s => s

end Block

/-- Whether some branch is taken whatever the conditions give. -/
def Conditional.isExhaustive : Conditional → Bool
  | only _ _ => false
  | withElse _ _ _ => true
  | withElseIf _ _ next _ => next.isExhaustive

/-- How deep the checker and the evaluator follow expressions into each other. -/
def maxNesting : Nat := 128

/-- A program is a sequence of statements. -/
abbrev Program := List Expr

end ExprLang
