import ExprLang.Expr.Basic

set_option autoImplicit false

/-!
Sub-expressions. The children of an expression are those that stand directly in it, whatever lies
between: a declaration, a block or the links of a conditional. Every induction over syntax goes
through them.
-/

namespace ExprLang

def Conditional.condition : Conditional → Expr
  | only condition _ | withElse condition _ _ | withElseIf condition _ _ _ => condition

def Conditional.body : Conditional → Block
  | only _ body | withElse _ body _ | withElseIf _ body _ _ => body

/-- The conditions of a conditional, from the first link to the last. -/
def Conditional.conditions : Conditional → List Expr
  | only condition _ => [condition]
  | withElse condition _ _ => [condition]
  | withElseIf condition _ next _ => condition :: next.conditions

/-- The conditions and the statements of a conditional. -/
def Conditional.children : Conditional → List Expr
  | only condition body => condition :: body.statements
  | withElse condition body otherwise => condition :: (body.statements ++ otherwise.statements)
  | withElseIf condition body next _ => condition :: (body.statements ++ next.children)

theorem Conditional.condition_mem (branches : Conditional) :
    branches.condition ∈ branches.children := by
  cases branches <;> exact List.mem_cons_self ..

theorem Conditional.body_subset (branches : Conditional) :
    branches.body.statements ⊆ branches.children := by
  cases branches with
  | only => exact List.subset_cons_self ..
  | withElse | withElseIf =>
    exact fun s inside => List.mem_cons_of_mem _ (List.mem_append_left _ inside)

theorem Conditional.condition_mem_conditions (branches : Conditional) :
    branches.condition ∈ branches.conditions := by
  cases branches <;> exact List.mem_cons_self ..

theorem Conditional.conditions_subset (b : Conditional) : b.conditions ⊆ b.children := by
  match b with
  | only _ _ => simp [conditions, children]
  | withElse _ _ _ => simp [conditions, children]
  | withElseIf condition body next _ =>
    have rest := next.conditions_subset
    intro e inside
    rcases List.mem_cons.1 inside with rfl | later
    · exact List.mem_cons_self ..
    · exact List.mem_cons_of_mem _ (List.mem_append_right _ (rest later))

namespace Expr

def children : Expr → List Expr
  | literal .. | name .. => []
  | list items _ => items
  | map entries _ => entries.flatMap fun entry => [entry.1, entry.2]
  | unary _ operand _ => [operand]
  | binary _ lhs rhs _ => [lhs, rhs]
  | declare declaration _ => [declaration.value]
  | assign _ value _ => [value]
  | block body _ => body.statements
  | cond branches _ => branches.children
  | loop vars body _ => vars.map (·.value) ++ body.statements
  | exit _ value _ => value.toList
  | call _ arguments _ => arguments

end Expr

theorem Declaration.sizeOf_value_lt (d : Declaration) : sizeOf d.value < sizeOf d := by
  cases d
  simp only [Declaration.value, Declaration.mk.sizeOf_spec]
  omega

theorem Block.sizeOf_lt_of_mem {b : Block} {e : Expr} (h : e ∈ b.statements) :
    sizeOf e < sizeOf b := by
  cases b
  have smaller := List.sizeOf_lt_of_mem h
  simp only [Block.statements, Block.mk.sizeOf_spec] at *
  omega

theorem Conditional.sizeOf_lt_of_mem_children {b : Conditional} {e : Expr}
    (h : e ∈ b.children) : sizeOf e < sizeOf b := by
  match b with
  | only condition body =>
    rcases List.mem_cons.1 h with rfl | inside
    · simp only [Conditional.only.sizeOf_spec]
      omega
    · have smaller := Block.sizeOf_lt_of_mem inside
      simp only [Conditional.only.sizeOf_spec]
      omega
  | withElse condition body otherwise =>
    simp only [Conditional.children, List.mem_cons, List.mem_append] at h
    simp only [Conditional.withElse.sizeOf_spec]
    rcases h with rfl | inside | inside
    · omega
    · have smaller := Block.sizeOf_lt_of_mem inside
      omega
    · have smaller := Block.sizeOf_lt_of_mem inside
      omega
  | withElseIf condition body next span =>
    simp only [Conditional.children, List.mem_cons, List.mem_append] at h
    simp only [Conditional.withElseIf.sizeOf_spec]
    rcases h with rfl | inside | inside
    · omega
    · have smaller := Block.sizeOf_lt_of_mem inside
      omega
    · have smaller := Conditional.sizeOf_lt_of_mem_children inside
      omega

theorem Expr.sizeOf_lt_of_mem_children {e x : Expr} (h : x ∈ e.children) :
    sizeOf x < sizeOf e := by
  cases e with
  | literal => simp [children] at h
  | list items =>
    have smaller : sizeOf x < sizeOf items := List.sizeOf_lt_of_mem h
    simp only [list.sizeOf_spec]
    omega
  | map entries =>
    obtain ⟨⟨key, value⟩, inside, here⟩ := List.mem_flatMap.1 h
    have smaller := List.sizeOf_lt_of_mem inside
    simp only [List.mem_cons, List.not_mem_nil, or_false] at here
    simp only [map.sizeOf_spec, Prod.mk.sizeOf_spec] at *
    rcases here with rfl | rfl <;> omega
  | name => simp [children] at h
  | unary op operand =>
    obtain rfl := List.mem_singleton.1 h
    simp only [unary.sizeOf_spec]
    omega
  | binary op lhs rhs =>
    simp only [children, List.mem_cons, List.not_mem_nil, or_false] at h
    simp only [binary.sizeOf_spec]
    rcases h with rfl | rfl <;> omega
  | declare d =>
    obtain rfl := List.mem_singleton.1 h
    have := d.sizeOf_value_lt
    simp only [declare.sizeOf_spec]
    omega
  | assign target value =>
    obtain rfl := List.mem_singleton.1 h
    simp only [assign.sizeOf_spec]
    omega
  | block body => have := Block.sizeOf_lt_of_mem h; simp only [block.sizeOf_spec]; omega
  | cond branches =>
    have := Conditional.sizeOf_lt_of_mem_children h
    simp only [cond.sizeOf_spec]
    omega
  | loop vars body =>
    simp only [children, List.mem_append, List.mem_map] at h
    simp only [loop.sizeOf_spec]
    rcases h with ⟨d, inside, rfl⟩ | inside
    · have := d.sizeOf_value_lt
      have := List.sizeOf_lt_of_mem inside
      omega
    · have := Block.sizeOf_lt_of_mem inside
      omega
  | exit kind value =>
    cases value with
    | none => simp [children] at h
    | some value =>
      obtain rfl := List.mem_singleton.1 h
      simp only [exit.sizeOf_spec, Option.some.sizeOf_spec]
      omega
  | call callee arguments =>
    have smaller : sizeOf x < sizeOf arguments := List.sizeOf_lt_of_mem h
    simp only [call.sizeOf_spec]
    omega

/-- What passes from the children of an expression to the expression holds of every expression. -/
@[elab_as_elim]
theorem Expr.childInduction {P : Expr → Prop} (step : ∀ e, (∀ x ∈ e.children, P x) → P e)
    (e : Expr) : P e :=
  step e fun x _ => Expr.childInduction step x
termination_by sizeOf e
decreasing_by exact Expr.sizeOf_lt_of_mem_children ‹_›

/-- A property holds of an expression and of everything in it. -/
inductive Expr.Everywhere (P : Expr → Prop) : Expr → Prop where
  | intro {e : Expr} (here : P e) (rest : ∀ x ∈ e.children, Everywhere P x) : Everywhere P e

namespace Expr.Everywhere

variable {P : Expr → Prop} {e x : Expr}

theorem self (h : e.Everywhere P) : P e := by
  cases h
  assumption

theorem child (h : e.Everywhere P) (inside : x ∈ e.children) : x.Everywhere P := by
  cases h with
  | intro _ rest => exact rest x inside

theorem of_forall (h : ∀ x, P x) : e.Everywhere P := by
  induction e using Expr.childInduction with
  | step e ih => exact .intro (h e) ih

/-- What can be decided of one expression can be decided of everything in it. -/
instance decidable [DecidablePred P] (e : Expr) : Decidable (e.Everywhere P) :=
  have inside : ∀ x : { x // x ∈ e.children }, Decidable (x.1.Everywhere P) :=
    fun x => decidable x.1
  decidable_of_iff (P e ∧ ∀ x ∈ e.children.attach, x.1.Everywhere P)
    ⟨fun h => .intro h.1 fun x child => h.2 ⟨x, child⟩ (List.mem_attach ..),
      fun h => ⟨h.self, fun x _ => h.child x.2⟩⟩
termination_by sizeOf e
decreasing_by exact Expr.sizeOf_lt_of_mem_children x.2

end Expr.Everywhere

/-- Whether the expression itself declares something: a declaration, or a loop with variables. -/
def Expr.declares : Expr → Bool
  | declare .. => true
  | loop (_ :: _) .. => true
  | _ => false

/-- No declaration stands anywhere in the expression. -/
def Expr.Quiet (e : Expr) : Prop :=
  e.Everywhere (·.declares = false)

instance : DecidablePred Expr.Quiet :=
  fun e => inferInstanceAs (Decidable (e.Everywhere _))

/-- The conditions of an expression that are looked at only after another one did not hold. -/
def Expr.elseIfConditions : Expr → List Expr
  | cond branches _ => branches.conditions.tail
  | _ => []

/-- No declaration stands in the condition of an `else if`, however deep in the expression. -/
def Expr.QuietElseIfs (e : Expr) : Prop :=
  e.Everywhere fun x => ∀ condition ∈ x.elseIfConditions, condition.Quiet

instance : DecidablePred Expr.QuietElseIfs :=
  fun e => inferInstanceAs (Decidable (e.Everywhere _))

def Program.QuietElseIfs (p : Program) : Prop :=
  ∀ statement ∈ p, statement.QuietElseIfs

instance : DecidablePred Program.QuietElseIfs :=
  fun p => inferInstanceAs (Decidable (∀ statement ∈ p, statement.QuietElseIfs))

/-! ### Places of complaints -/

/-- The spans to which complaints about the links of a conditional are laid. -/
def Conditional.blamed (span : Span) : Conditional → List Span
  | only _ _ => []
  | withElse _ _ otherwise => [otherwise.span.merge span]
  | withElseIf _ _ next nextSpan => nextSpan.merge span :: next.blamed nextSpan

/-- The spans to which complaints about an expression are laid, apart from those about what stands
in it. -/
def Expr.blamed : Expr → List Span
  | name ident span => [span, ident.span]
  | assign target _ span => [span, target.span]
  | call callee _ span => [span, callee.span]
  | cond branches span => span :: branches.blamed span
  | e => [e.span]

/-- Complaints about an expression and about everything in it are laid to such spans only. -/
abbrev Expr.Blames (Q : Span → Prop) (e : Expr) : Prop :=
  e.Everywhere fun x => ∀ s ∈ x.blamed, Q s

theorem Expr.span_mem_blamed (e : Expr) : e.span ∈ e.blamed := by
  cases e <;> exact List.mem_cons_self ..

theorem Expr.Blames.span {Q : Span → Prop} {e : Expr} (h : e.Blames Q) : Q e.span :=
  h.self e.span e.span_mem_blamed

end ExprLang
