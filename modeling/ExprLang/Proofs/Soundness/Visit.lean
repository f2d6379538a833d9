import ExprLang.Proofs.CheckerParts
import ExprLang.Proofs.Soundness.Program
import ExprLang.Session

set_option autoImplicit false

/-!
Every evaluation of a sub-expression in the run of a program, with the state of the checker when it
came to the same place.
-/

namespace ExprLang

namespace Soundness

variable {σ : Type} [Sink σ] (rounds : Nat)

/-- In a block, a statement is come to once those before it have been left in the normal way. -/
inductive InBlock (c : Checker) (m : Machine σ) (body : Block) :
    Checker → Machine σ → Expr → Prop where
  | statement {before after : List Expr} {x : Expr} {v : Value} {m' : Machine σ}
      (split : body.statements = before ++ x :: after)
      (ran : (Expr.evalStatements rounds before).run m.entered = .ok (.normal v) m') :
      InBlock c m body ((Expr.checkStatements none before).run c.entered).2 m' x

/-- In a conditional, the checker comes to every link, and the evaluator to one block. -/
inductive InConditional :
    Checker → Machine σ → Conditional → Checker → Machine σ → Expr → Prop where
  | condition {c : Checker} {m : Machine σ} {branches : Conditional} :
      InConditional c m branches c.opened m branches.condition
  | body {c c' : Checker} {m m₁ m' : Machine σ} {branches : Conditional} {x : Expr}
      (holds : (EvalM.asValue (branches.condition.eval rounds)).run m = .ok (.bool true) m₁)
      (inside : InBlock rounds
        ((CheckM.asValue branches.condition.span branches.condition.check).run c).2 m₁
        branches.body c' m' x) :
      InConditional c m branches c' m' x
  | otherwise {c c' : Checker} {m m₁ m' : Machine σ} {condition : Expr} {body other : Block}
      {x : Expr}
      (fails : (EvalM.asValue (condition.eval rounds)).run m = .ok (.bool false) m₁)
      (inside : InBlock rounds
        (body.check.run ((CheckM.asValue condition.span condition.check).run c).2).2 m₁ other
        c' m' x) :
      InConditional c m (.withElse condition body other) c' m' x
  | next {c c' : Checker} {m m₁ m' : Machine σ} {condition : Expr} {body : Block}
      {next : Conditional} {span : Span} {x : Expr}
      (fails : (EvalM.asValue (condition.eval rounds)).run m = .ok (.bool false) m₁)
      (inside : InConditional
        (body.check.run ((CheckM.asValue condition.span condition.check).run c).2).2 m₁ next
        c' m' x) :
      InConditional c m (.withElseIf condition body next span) c' m' x

/-- Rounds of a loop that have not been left by an exit. -/
inductive Rounds (body : EvalM σ (Control Value)) : Machine σ → Machine σ → Prop where
  | zero {m : Machine σ} : Rounds body m m
  | succ {m m₁ m' : Machine σ} {v : Value} (first : body.run m = .ok (.normal v) m₁)
      (others : Rounds body m₁ m') : Rounds body m m'

/-- What is evaluated in an expression, from states that are one level further in already. -/
inductive InExpr (c : Checker) (m : Machine σ) : Expr → Checker → Machine σ → Expr → Prop where
  | operand {e x : Expr} {before after : List Expr} {values : List Value} {m' : Machine σ}
      (split : e.operands = before ++ x :: after)
      (ran : (Expr.evalAll rounds before).run m = .ok values m') :
      InExpr c m e ((Expr.checkArguments before).run c).2.opened m' x
  | block {body : Block} {span : Span} {c' : Checker} {m' : Machine σ} {x : Expr}
      (inside : InBlock rounds c m body c' m' x) : InExpr c m (.block body span) c' m' x
  | cond {branches : Conditional} {span : Span} {c' : Checker} {m' : Machine σ} {x : Expr}
      (inside : InConditional rounds c m branches c' m' x) :
      InExpr c m (.cond branches span) c' m' x
  | initial {before after : List Declaration} {d : Declaration} {body : Block} {span : Span}
      {aside : List (String × Entry Value)} {m' : Machine σ}
      (ran : (Declaration.evalVariables rounds [] before).run m = .ok aside m') :
      InExpr c m (.loop (before ++ d :: after) body span)
        (((Declaration.checkVariables [] before).run c).2.erased d.name.name).opened
        (m'.erased d.name.name) d.value
  | round {vars : List Declaration} {body : Block} {span : Span}
      {aside : List (String × Entry Value)} {c' : Checker} {m₁ m₂ m' : Machine σ} {x : Expr}
      (ran : (Declaration.evalVariables rounds [] vars).run m = .ok aside m₁)
      (repeated : Rounds (body.eval rounds) m₁ m₂)
      (inside : InBlock rounds ((Declaration.checkVariables [] vars).run c).2.opened m₂ body
        c' m' x) :
      InExpr c m (.loop vars body span) c' m' x

/-- In the run of `p`, evaluation comes to `x` in the state of the machine, and checking has come to
it in the state of the checker. -/
inductive Visits (p : Program) (sink : σ) : Checker → Machine σ → Expr → Prop where
  | statement {before after : List Expr} {x : Expr} {v : Value} {m : Machine σ}
      (split : p = before ++ x :: after)
      (ran : (Program.eval rounds before).run (Machine.init sink) = .ok (.normal v) m) :
      Visits p sink ((Program.check before).run Checker.init).2 m x
  | inside {c c' : Checker} {m m' : Machine σ} {e x : Expr} (visit : Visits p sink c m e)
      (near : m.depth < maxNesting) (inside : InExpr rounds c.deeper m.deeper e c' m' x) :
      Visits p sink c' m' x

variable {rounds} {base : Array (Located RuntimeError)} {c c' : Checker} {m m' : Machine σ}
  {e x : Expr}

variable (base) in
/-- Evaluation can begin here: the states agree, and the checker has no complaint about it. -/
structure Ready (c : Checker) (m : Machine σ) (x : Expr) : Prop where
  agree : Agree True base c m
  quiet : x.QuietElseIfs
  clean : (x.check.run c).2.Clean

theorem ready_block {body : Block} (quiet : ∀ s ∈ body.statements, s.QuietElseIfs)
    (agree : Agree True base c m) (clean : (body.check.run c).2.Clean)
    (inside : InBlock rounds c m body c' m' x) : Ready base c' m' x := by
  cases inside with
  | @statement before after x v m' split ran =>
    obtain ⟨before', here⟩ := Block.clean_statement split clean
    rw [split] at quiet
    have sounds : ∀ s ∈ before, Sound σ True base rounds s := fun s inside =>
      sound s (quiet s (List.mem_append_left _ inside))
    obtain ⟨-, agree', -⟩ :=
      (ends_statements sounds none (fun _ => rfl) agree.entered before').of_ok ran
    exact ⟨agree' rfl, quiet x (by simp), here⟩

/-- After a condition the states agree, whatever it has come to. -/
theorem agree_condition {condition : Expr} (quiet : condition.QuietElseIfs)
    (agree : Agree True base c m)
    (clean : ((CheckM.asValue condition.span condition.check).run c).2.Clean) {v : Value}
    (ran : (EvalM.asValue (condition.eval rounds)).run m = .ok v m') :
    Agree True base ((CheckM.asValue condition.span condition.check).run c).2 m' :=
  (((sound condition quiet).used c m agree clean).of_ok ran).1

theorem ready_conditional {branches : Conditional} {span : Span}
    (quiet : ∀ s ∈ branches.children, s.QuietElseIfs) (agree : Agree True base c m)
    (clean : ((branches.check span).run c).2.Clean)
    (inside : InConditional rounds c m branches c' m' x) : Ready base c' m' x := by
  induction inside generalizing span with
  | @condition c m branches =>
    exact ⟨agree.opened, quiet _ branches.condition_mem,
      Expr.clean_of_asValue (Conditional.clean_body clean).1⟩
  | @body c c' m m₁ m' branches x holds inside =>
    obtain ⟨guard, body⟩ := Conditional.clean_body clean
    exact ready_block (fun s inside => quiet s (branches.body_subset inside))
      (agree_condition (quiet _ branches.condition_mem) agree guard holds) body inside
  | @otherwise c c' m m₁ m' condition body other x fails inside =>
    obtain ⟨guard, -⟩ := Conditional.clean_body clean
    obtain ⟨first, rest⟩ := List.forall_mem_cons.1 quiet
    exact ready_block (fun s inside => rest s (List.mem_append_right _ inside))
      ((agree_condition first agree guard fails).checker (body.anyhow_check _))
      (Conditional.clean_otherwise clean) inside
  | @next c c' m m₁ m' condition body next nextSpan x fails inside ih =>
    obtain ⟨guard, -⟩ := Conditional.clean_body clean
    obtain ⟨first, rest⟩ := List.forall_mem_cons.1 quiet
    exact ih (fun s inside => rest s (List.mem_append_right _ inside))
      ((agree_condition first agree guard fails).checker (body.anyhow_check _))
      (Conditional.clean_next clean)

theorem agree_rounds {body : Block} (quiet : ∀ s ∈ body.statements, s.QuietElseIfs)
    (clean : (body.check.run c.opened).2.Clean) (agree : Agree True base c.opened m)
    (repeated : Rounds (body.eval rounds) m m') : Agree True base c.opened m' := by
  induction repeated with
  | zero => exact agree
  | succ first others ih =>
    have sounds : ∀ s ∈ body.statements, Sound σ True base rounds s := fun s inside =>
      sound s (quiet s inside)
    exact ih (agree_again (((meets_block sounds c.opened _) agree clean).of_ok first).1)

/-- Whatever evaluation comes to next is ready as well. -/
theorem Ready.inside (h : Ready base c m e) (inside : InExpr rounds c.deeper m.deeper e c' m' x) :
    Ready base c' m' x := by
  have sounds : ∀ y ∈ e.children, Sound σ True base rounds y := fun y inside =>
    sound y (h.quiet.child inside)
  cases inside with
  | @operand _ _ before after values _ split ran =>
    have clean := Expr.clean_operands h.clean
    rw [split] at clean
    obtain ⟨before', here⟩ := Expr.clean_argument clean
    have children : ∀ y ∈ before ++ x :: after, y ∈ e.children := fun y inside =>
      e.operands_subset (split ▸ inside)
    have agree := ((meets_arguments
      (fun y inside => sounds y (children y (List.mem_append_left _ inside)))
      c.deeper m.deeper) h.agree.deeper before').of_ok ran
    exact ⟨agree.1.opened, h.quiet.child (children x (by simp)), here⟩
  | block inside =>
    have clean := h.clean
    rw [Expr.check] at clean
    exact ready_block (fun s inside => h.quiet.child inside) h.agree.deeper
      (CheckM.nested_of_clean clean) inside
  | cond inside =>
    have clean := h.clean
    rw [Expr.check] at clean
    exact ready_conditional (fun s inside => h.quiet.child inside) h.agree.deeper
      (CheckM.nested_of_clean clean) inside
  | @initial before after d body span aside m' ran =>
    obtain ⟨before', here⟩ := Declaration.clean_variable (Expr.clean_loop h.clean).1
    have children : ∀ y ∈ before ++ d :: after,
        y.value ∈ (Expr.loop (before ++ d :: after) body span).children := fun y inside =>
      List.mem_append_left _ (List.mem_map_of_mem inside)
    have agree := ((meets_variables
      (fun y inside => sounds y.value (children y (List.mem_append_left _ inside)))
      [] c.deeper m.deeper) h.agree.deeper before').of_ok ran
    exact ⟨(agree.1.erased d.name.name).opened, h.quiet.child (children d (by simp)), here⟩
  | @round vars body span aside c' m₁ m₂ m' x ran repeated inside =>
    obtain ⟨header, block⟩ := Expr.clean_loop h.clean
    have initial : ∀ d ∈ vars, Sound σ True base rounds d.value := fun d inside =>
      sounds _ (List.mem_append_left _ (List.mem_map_of_mem inside))
    have quiet : ∀ s ∈ body.statements, s.QuietElseIfs := fun s inside =>
      h.quiet.child (List.mem_append_right _ inside)
    have agree := ((meets_variables initial [] c.deeper m.deeper) h.agree.deeper header).of_ok ran
    exact ready_block quiet (agree_rounds quiet block agree.1.opened repeated) block inside

/-- Evaluation is ready wherever it comes to in the run of a program without complaints. -/
theorem Visits.ready {p : Program} {sink : σ} (quiet : p.QuietElseIfs)
    (clean : ((Program.check p).run Checker.init).2.Clean) (visit : Visits rounds p sink c m x) :
    Ready #[] c m x := by
  induction visit with
  | @statement before after x v m split ran =>
    subst split
    obtain ⟨before', here⟩ := Program.clean_statement clean
    have sounds : ∀ s ∈ before, Sound σ True #[] rounds s := fun s inside =>
      sound s (quiet s (List.mem_append_left _ inside))
    exact ⟨agree_of_normal sounds (agree_init sink) before' ran, quiet x (by simp), here⟩
  | inside _ _ inside ih => exact ih.inside inside

end Soundness

end ExprLang
