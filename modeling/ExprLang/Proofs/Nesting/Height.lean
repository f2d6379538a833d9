import ExprLang.Proofs.RoundTrip.Attempt

set_option autoImplicit false

/-!
How high the tree is that a parser with a limit reads. The limit is met at every expression and at
every operand, but at three kinds of steps it is not: from an operation to its left operand, from a
condition to the next one after `else`, and inside of types. Steps of these kinds are counted apart.
-/

namespace ExprLang

/-- What the steps down a tree count. -/
structure Gauge where
  /-- A step to a part of an expression or of a block. -/
  part : Nat
  /-- A step from an operation to its left operand. -/
  left : Nat
  /-- A step to the condition after an `else`. -/
  link : Nat
  /-- A step into a type. -/
  type : Nat

namespace Gauge

/-- Counts by both gauges. -/
def add (g h : Gauge) : Gauge :=
  ⟨g.part + h.part, g.left + h.left, g.link + h.link, g.type + h.type⟩

@[simp] theorem part_add (g h : Gauge) : (g.add h).part = g.part + h.part := rfl

@[simp] theorem left_add (g h : Gauge) : (g.add h).left = g.left + h.left := rfl

@[simp] theorem link_add (g h : Gauge) : (g.add h).link = g.link + h.link := rfl

@[simp] theorem type_add (g h : Gauge) : (g.add h).type = g.type + h.type := rfl

/-- Every step counts. -/
def all : Gauge := ⟨1, 1, 1, 1⟩

/-- The steps at which a parser looks at its limit. -/
def guarded : Gauge := ⟨1, 0, 0, 0⟩

/-- The steps at which it does not. -/
def unguarded : Gauge := ⟨0, 1, 1, 1⟩

end Gauge

def TypeExpr.heightBy (g : Gauge) : TypeExpr → Nat
  | none _ | int _ | dec _ | str _ | bool _ => g.type
  | list element _ => element.heightBy g + g.type
  | map key value _ => max (key.heightBy g) (value.heightBy g) + g.type

mutual

/-- The longest way down from an expression, by the gauge. -/
def Expr.heightBy (g : Gauge) : Expr → Nat
  | .literal _ _ => g.part
  | .list items _ => Expr.heightAllBy g items + g.part
  | .map entries _ => Expr.heightEntriesBy g entries + g.part
  | .name _ _ => g.part
  | .unary _ operand _ => operand.heightBy g + g.part
  | .binary _ lhs rhs _ => max (lhs.heightBy g + g.left) (rhs.heightBy g + g.part)
  | .declare declaration _ => declaration.heightBy g + g.part
  | .assign _ value _ => value.heightBy g + g.part
  | .block body _ => body.heightBy g + g.part
  | .cond branches _ => branches.heightBy g + g.part
  | .loop vars body _ => max (Declaration.heightAllBy g vars) (body.heightBy g) + g.part
  | .exit _ none _ => g.part
  | .exit _ (some value) _ => value.heightBy g + g.part
  | .call _ arguments _ => Expr.heightAllBy g arguments + g.part

def Expr.heightAllBy (g : Gauge) : List Expr → Nat
  | [] => 0
  | e :: es => max (e.heightBy g) (Expr.heightAllBy g es)

def Expr.heightEntriesBy (g : Gauge) : List (Expr × Expr) → Nat
  | [] => 0
  | (key, value) :: es => max (max (key.heightBy g) (value.heightBy g)) (Expr.heightEntriesBy g es)

def Declaration.heightBy (g : Gauge) : Declaration → Nat
  | .mk _ _ type value _ => max (type.heightBy g) (value.heightBy g)

def Declaration.heightAllBy (g : Gauge) : List Declaration → Nat
  | [] => 0
  | d :: ds => max (d.heightBy g) (Declaration.heightAllBy g ds)

def Block.heightBy (g : Gauge) : Block → Nat
  | .mk statements _ => Expr.heightAllBy g statements + g.part

def Conditional.heightBy (g : Gauge) : Conditional → Nat
  | .only condition body => max (condition.heightBy g) (body.heightBy g)
  | .withElse condition body otherwise =>
    max (condition.heightBy g) (max (body.heightBy g) (otherwise.heightBy g))
  | .withElseIf condition body next _ =>
    max (condition.heightBy g) (max (body.heightBy g) (next.heightBy g + g.link))

end

def Program.heightBy (g : Gauge) (p : Program) : Nat :=
  Expr.heightAllBy g p

/-- How high a program is, through expressions, blocks, `else if` links and types. -/
abbrev Program.height (p : Program) : Nat :=
  p.heightBy .all

theorem Expr.heightBy_withSpan (g : Gauge) (e : Expr) (span : Span) :
    (e.withSpan span).heightBy g = e.heightBy g := by
  cases e with
  | exit kind value _ => cases value <;> simp only [withSpan, heightBy]
  | _ => simp only [withSpan, heightBy]

theorem TypeExpr.heightBy_guarded (t : TypeExpr) : t.heightBy .guarded = 0 := by
  have none : Gauge.guarded.type = 0 := rfl
  induction t with
  | none | int | dec | str | bool => rfl
  | list element _ ih => simp only [heightBy, ih, none]
  | map key value _ ih ih' => simp only [heightBy, ih, ih', none, Nat.max_self]

/-! ### Counting by two gauges -/

section Add

variable (g h : Gauge)

theorem TypeExpr.heightBy_add_le (t : TypeExpr) :
    t.heightBy (g.add h) ≤ t.heightBy g + t.heightBy h := by
  induction t with
  | none | int | dec | str | bool => exact Nat.le_refl _
  | list element _ ih =>
    simp only [heightBy, Gauge.type_add]
    omega
  | map key value _ ih ih' =>
    simp only [heightBy, Gauge.type_add]
    omega

mutual

theorem Expr.heightBy_add_le (e : Expr) :
    e.heightBy (g.add h) ≤ e.heightBy g + e.heightBy h := by
  match e with
  | .literal _ _ | .name _ _ | .exit _ none _ =>
    simp only [Expr.heightBy, Gauge.part_add]
    omega
  | .list items _ =>
    have inside := Expr.heightAllBy_add_le items
    simp only [Expr.heightBy, Gauge.part_add]
    omega
  | .map entries _ =>
    have inside := Expr.heightEntriesBy_add_le entries
    simp only [Expr.heightBy, Gauge.part_add]
    omega
  | .unary _ operand _ =>
    have inside := operand.heightBy_add_le
    simp only [Expr.heightBy, Gauge.part_add]
    omega
  | .binary _ lhs rhs _ =>
    have left := lhs.heightBy_add_le
    have right := rhs.heightBy_add_le
    simp only [Expr.heightBy, Gauge.part_add, Gauge.left_add]
    omega
  | .declare declaration _ =>
    have inside := declaration.heightBy_add_le
    simp only [Expr.heightBy, Gauge.part_add]
    omega
  | .assign _ value _ | .exit _ (some value) _ =>
    have inside := value.heightBy_add_le
    simp only [Expr.heightBy, Gauge.part_add]
    omega
  | .block body _ =>
    have inside := body.heightBy_add_le
    simp only [Expr.heightBy, Gauge.part_add]
    omega
  | .cond branches _ =>
    have inside := branches.heightBy_add_le
    simp only [Expr.heightBy, Gauge.part_add]
    omega
  | .loop vars body _ =>
    have first := Declaration.heightAllBy_add_le vars
    have inside := body.heightBy_add_le
    simp only [Expr.heightBy, Gauge.part_add]
    omega
  | .call _ arguments _ =>
    have inside := Expr.heightAllBy_add_le arguments
    simp only [Expr.heightBy, Gauge.part_add]
    omega

theorem Expr.heightAllBy_add_le (es : List Expr) :
    Expr.heightAllBy (g.add h) es ≤ Expr.heightAllBy g es + Expr.heightAllBy h es := by
  match es with
  | [] => exact Nat.le_refl _
  | e :: es =>
    have first := e.heightBy_add_le
    have others := Expr.heightAllBy_add_le es
    simp only [Expr.heightAllBy]
    omega

theorem Expr.heightEntriesBy_add_le (es : List (Expr × Expr)) :
    Expr.heightEntriesBy (g.add h) es ≤
      Expr.heightEntriesBy g es + Expr.heightEntriesBy h es := by
  match es with
  | [] => exact Nat.le_refl _
  | (key, value) :: es =>
    have first := key.heightBy_add_le
    have second := value.heightBy_add_le
    have others := Expr.heightEntriesBy_add_le es
    simp only [Expr.heightEntriesBy]
    omega

theorem Declaration.heightBy_add_le (d : Declaration) :
    d.heightBy (g.add h) ≤ d.heightBy g + d.heightBy h := by
  match d with
  | .mk _ _ type value _ =>
    have declared := type.heightBy_add_le g h
    have inside := value.heightBy_add_le
    simp only [Declaration.heightBy]
    omega

theorem Declaration.heightAllBy_add_le (ds : List Declaration) :
    Declaration.heightAllBy (g.add h) ds ≤
      Declaration.heightAllBy g ds + Declaration.heightAllBy h ds := by
  match ds with
  | [] => exact Nat.le_refl _
  | d :: ds =>
    have first := d.heightBy_add_le
    have others := Declaration.heightAllBy_add_le ds
    simp only [Declaration.heightAllBy]
    omega

theorem Block.heightBy_add_le (b : Block) :
    b.heightBy (g.add h) ≤ b.heightBy g + b.heightBy h := by
  match b with
  | .mk statements _ =>
    have inside := Expr.heightAllBy_add_le statements
    simp only [Block.heightBy, Gauge.part_add]
    omega

theorem Conditional.heightBy_add_le (b : Conditional) :
    b.heightBy (g.add h) ≤ b.heightBy g + b.heightBy h := by
  match b with
  | .only condition body =>
    have first := condition.heightBy_add_le
    have inside := body.heightBy_add_le
    simp only [Conditional.heightBy]
    omega
  | .withElse condition body otherwise =>
    have first := condition.heightBy_add_le
    have inside := body.heightBy_add_le
    have other := otherwise.heightBy_add_le
    simp only [Conditional.heightBy]
    omega
  | .withElseIf condition body next _ =>
    have first := condition.heightBy_add_le
    have inside := body.heightBy_add_le
    have other := next.heightBy_add_le
    simp only [Conditional.heightBy, Gauge.link_add]
    omega

end

end Add

/-- What goes beyond the guarded steps are unguarded ones. -/
theorem Program.height_le (p : Program) :
    p.height ≤ p.heightBy .guarded + p.heightBy .unguarded :=
  Expr.heightAllBy_add_le .guarded .unguarded p

end ExprLang
