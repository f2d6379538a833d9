import ExprLang.Expr.Basic

set_option autoImplicit false

/-!
Trees with other places. A function is applied to every span of a tree; what two trees have in
common besides the places that it tells apart is that they become the same. The places do not matter
at all for a constant function, and they all matter for the identity.
-/

namespace ExprLang

def Ident.respan (f : Span → Span) (i : Ident) : Ident :=
  ⟨i.name, f i.span⟩

def TypeExpr.respan (f : Span → Span) : TypeExpr → TypeExpr
  | none s => .none (f s)
  | int s => .int (f s)
  | dec s => .dec (f s)
  | str s => .str (f s)
  | bool s => .bool (f s)
  | list element s => .list (element.respan f) (f s)
  | map key value s => .map (key.respan f) (value.respan f) (f s)

mutual

/-- The expression with every span in it changed. -/
def Expr.respan (f : Span → Span) : Expr → Expr
  | .literal value s => .literal value (f s)
  | .list items s => .list (Expr.respanAll f items) (f s)
  | .map entries s => .map (Expr.respanEntries f entries) (f s)
  | .name ident s => .name (ident.respan f) (f s)
  | .unary op operand s => .unary op (operand.respan f) (f s)
  | .binary op lhs rhs s => .binary op (lhs.respan f) (rhs.respan f) (f s)
  | .declare declaration s => .declare (declaration.respan f) (f s)
  | .assign target value s => .assign (target.respan f) (value.respan f) (f s)
  | .block body s => .block (body.respan f) (f s)
  | .cond branches s => .cond (branches.respan f) (f s)
  | .loop vars body s => .loop (Declaration.respanAll f vars) (body.respan f) (f s)
  | .exit kind none s => .exit kind none (f s)
  | .exit kind (some value) s => .exit kind (some (value.respan f)) (f s)
  | .call callee arguments s => .call (callee.respan f) (Expr.respanAll f arguments) (f s)

def Expr.respanAll (f : Span → Span) : List Expr → List Expr
  | [] => []
  | e :: es => e.respan f :: Expr.respanAll f es

def Expr.respanEntries (f : Span → Span) : List (Expr × Expr) → List (Expr × Expr)
  | [] => []
  | (key, value) :: es => (key.respan f, value.respan f) :: Expr.respanEntries f es

def Declaration.respan (f : Span → Span) : Declaration → Declaration
  | .mk binding name type value s =>
    .mk binding (name.respan f) (type.respan f) (value.respan f) (f s)

def Declaration.respanAll (f : Span → Span) : List Declaration → List Declaration
  | [] => []
  | d :: ds => d.respan f :: Declaration.respanAll f ds

def Block.respan (f : Span → Span) : Block → Block
  | .mk statements s => .mk (Expr.respanAll f statements) (f s)

def Conditional.respan (f : Span → Span) : Conditional → Conditional
  | .only condition body => .only (condition.respan f) (body.respan f)
  | .withElse condition body otherwise =>
    .withElse (condition.respan f) (body.respan f) (otherwise.respan f)
  | .withElseIf condition body next s =>
    .withElseIf (condition.respan f) (body.respan f) (next.respan f) (f s)

end

/-- The program with every span in it changed. -/
def Program.respan (f : Span → Span) (p : Program) : Program :=
  Expr.respanAll f p

/-! Trees that become the same stand at places that become the same. -/

section Spans

variable {f : Span → Span}

theorem Ident.span_of_respan {i j : Ident} (h : j.respan f = i.respan f) : f j.span = f i.span :=
  congrArg Ident.span h

theorem TypeExpr.span_respan (f : Span → Span) (t : TypeExpr) : (t.respan f).span = f t.span := by
  cases t <;> rfl

theorem TypeExpr.span_of_respan {s t : TypeExpr} (h : t.respan f = s.respan f) :
    f t.span = f s.span := by
  rw [← t.span_respan f, ← s.span_respan f, h]

theorem Expr.span_respan (f : Span → Span) (e : Expr) : (e.respan f).span = f e.span := by
  cases e with
  | exit kind value => cases value <;> rfl
  | _ => rfl

theorem Expr.span_of_respan {d e : Expr} (h : e.respan f = d.respan f) : f e.span = f d.span := by
  rw [← e.span_respan f, ← d.span_respan f, h]

theorem Block.span_respan (f : Span → Span) (b : Block) : (b.respan f).span = f b.span := by
  cases b
  rfl

theorem Block.span_of_respan {b c : Block} (h : c.respan f = b.respan f) : f c.span = f b.span := by
  rw [← c.span_respan f, ← b.span_respan f, h]

theorem Declaration.span_respan (f : Span → Span) (d : Declaration) :
    (d.respan f).span = f d.span := by
  cases d
  rfl

theorem Declaration.span_of_respan {d e : Declaration} (h : e.respan f = d.respan f) :
    f e.span = f d.span := by
  rw [← e.span_respan f, ← d.span_respan f, h]

theorem Expr.respan_withSpan (f : Span → Span) (e : Expr) (s : Span) :
    (e.withSpan s).respan f = (e.respan f).withSpan (f s) := by
  cases e with
  | exit kind value => cases value <;> rfl
  | _ => rfl

end Spans

/-! ### What stays -/

theorem TypeExpr.type_respan (f : Span → Span) (t : TypeExpr) : (t.respan f).type = t.type := by
  induction t with
  | none | int | dec | str | bool => rfl
  | list element _ ih => rw [respan, type, type, ih]
  | map key value _ ihKey ihValue => rw [respan, type, type, ihKey, ihValue]

theorem Declaration.name_respan (f : Span → Span) (d : Declaration) :
    (d.respan f).name.name = d.name.name := by
  cases d
  rfl

theorem Declaration.names_respanAll (f : Span → Span) (ds : List Declaration) :
    (Declaration.respanAll f ds).map (·.name.name) = ds.map (·.name.name) := by
  induction ds with
  | nil => rfl
  | cons d ds ih => rw [respanAll, List.map_cons, List.map_cons, ih, name_respan]

theorem Conditional.isExhaustive_respan (f : Span → Span) (b : Conditional) :
    (b.respan f).isExhaustive = b.isExhaustive := by
  match b with
  | only .. | withElse .. => rfl
  | withElseIf _ _ next _ => exact next.isExhaustive_respan f

/-! ### Places that matter -/

theorem TypeExpr.respan_id (t : TypeExpr) : t.respan id = t := by
  induction t with
  | list element s ih => rw [respan, ih]; rfl
  | map key value s ihKey ihValue => rw [respan, ihKey, ihValue]; rfl
  | _ => rfl

mutual

theorem Expr.respan_id (e : Expr) : e.respan id = e := by
  cases e with
  | literal value s | name ident s => rfl
  | list items s => rw [Expr.respan, Expr.respanAll_id items]; rfl
  | map entries s => rw [Expr.respan, Expr.respanEntries_id entries]; rfl
  | unary op operand s => rw [Expr.respan, operand.respan_id]; rfl
  | binary op lhs rhs s => rw [Expr.respan, lhs.respan_id, rhs.respan_id]; rfl
  | declare d s => rw [Expr.respan, d.respan_id]; rfl
  | assign target value s => rw [Expr.respan, value.respan_id]; rfl
  | block body s => rw [Expr.respan, body.respan_id]; rfl
  | cond branches s => rw [Expr.respan, branches.respan_id]; rfl
  | loop vars body s => rw [Expr.respan, Declaration.respanAll_id vars, body.respan_id]; rfl
  | exit kind value s =>
    cases value with
    | none => rfl
    | some value => rw [Expr.respan, value.respan_id]; rfl
  | call callee arguments s => rw [Expr.respan, Expr.respanAll_id arguments]; rfl

theorem Expr.respanAll_id (es : List Expr) : Expr.respanAll id es = es := by
  cases es with
  | nil => rfl
  | cons e es => rw [Expr.respanAll, e.respan_id, Expr.respanAll_id es]

theorem Expr.respanEntries_id (es : List (Expr × Expr)) : Expr.respanEntries id es = es := by
  cases es with
  | nil => rfl
  | cons entry es =>
    obtain ⟨key, value⟩ := entry
    rw [Expr.respanEntries, key.respan_id, value.respan_id, Expr.respanEntries_id es]

theorem Declaration.respan_id (d : Declaration) : d.respan id = d := by
  cases d with
  | mk binding name type value s => rw [Declaration.respan, type.respan_id, value.respan_id]; rfl

theorem Declaration.respanAll_id (ds : List Declaration) : Declaration.respanAll id ds = ds := by
  cases ds with
  | nil => rfl
  | cons d ds => rw [Declaration.respanAll, d.respan_id, Declaration.respanAll_id ds]

theorem Block.respan_id (b : Block) : b.respan id = b := by
  cases b with
  | mk statements s => rw [Block.respan, Expr.respanAll_id statements]; rfl

theorem Conditional.respan_id (c : Conditional) : c.respan id = c := by
  cases c with
  | only condition body => rw [Conditional.respan, condition.respan_id, body.respan_id]
  | withElse condition body otherwise =>
    rw [Conditional.respan, condition.respan_id, body.respan_id, otherwise.respan_id]
  | withElseIf condition body next s =>
    rw [Conditional.respan, condition.respan_id, body.respan_id, next.respan_id]
    rfl

end

/-! ### Places that do not matter -/

/-- No place is told apart from another. -/
abbrev Span.blot (_ : Span) : Span :=
  default

abbrev TypeExpr.bare (t : TypeExpr) : TypeExpr :=
  t.respan Span.blot

/-- The expression with every span in it blotted out. -/
abbrev Expr.bare (e : Expr) : Expr :=
  e.respan Span.blot

abbrev Expr.bareAll (es : List Expr) : List Expr :=
  Expr.respanAll Span.blot es

abbrev Expr.bareEntries (es : List (Expr × Expr)) : List (Expr × Expr) :=
  Expr.respanEntries Span.blot es

abbrev Declaration.bare (d : Declaration) : Declaration :=
  d.respan Span.blot

abbrev Declaration.bareAll (ds : List Declaration) : List Declaration :=
  Declaration.respanAll Span.blot ds

abbrev Block.bare (b : Block) : Block :=
  b.respan Span.blot

abbrev Conditional.bare (c : Conditional) : Conditional :=
  c.respan Span.blot

/-- The program with every span in it blotted out. -/
abbrev Program.bare (p : Program) : Program :=
  p.respan Span.blot

theorem Expr.bare_withSpan (e : Expr) (s : Span) : (e.withSpan s).bare = e.bare := by
  cases e with
  | exit kind value => cases value <;> rfl
  | _ => rfl

end ExprLang
