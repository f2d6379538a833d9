import ExprLang.Proofs.ParallelRuns
import ExprLang.Proofs.Places

set_option autoImplicit false

/-!
One program on two machines, perhaps at different places, and perhaps with other steps where scopes
change. If the relation between the machines is kept by every single step, then it is kept by
evaluation as a whole, and both machines come to the same result.
-/

namespace ExprLang

open EvalM

variable {σ τ : Type} [Sink σ] [Sink τ] {R : Machine σ → Machine τ → Prop}
  {S : Span → Span → Prop} {left : ScopeSteps σ} {right : ScopeSteps τ}
  {entry : left.Aside → right.Aside} (follows : Follows R S) (steps : InStep R S left right entry)
  {f : Span → Span} (places : ∀ s, S s (f s)) (rounds : Nat)

include follows steps places

set_option linter.unusedSectionVars false in
mutual

theorem Expr.parallel_eval (e : Expr) : Parallel R (e.eval rounds) ((e.respan f).eval rounds) := by
  match e with
  | .literal value _ =>
    rw [Expr.respan, Expr.eval, Expr.eval]
    apply parallel_nested follows _ (places _)
    exact parallel_pure _
  | .list items _ =>
    rw [Expr.respan, Expr.eval, Expr.eval]
    apply parallel_nested follows _ (places _)
    exact (Expr.parallel_evalAll items).bind fun _ => parallel_pure _
  | .map entries _ =>
    rw [Expr.respan, Expr.eval, Expr.eval]
    apply parallel_nested follows _ (places _)
    exact (Expr.parallel_evalEntries entries).bind fun _ => parallel_pure _
  | .name ident _ =>
    rw [Expr.respan, Expr.eval, Expr.eval]
    apply parallel_nested follows _ (places _)
    have found := parallel_lookup follows (i := ident) (j := ident.respan f) rfl (places _)
    exact found.bind fun _ => parallel_pure _
  | .unary op operand _ =>
    rw [Expr.respan, Expr.eval, Expr.eval]
    apply parallel_nested follows _ (places _)
    refine (parallel_asValue operand.parallel_eval).bind fun value => ?_
    exact (parallel_unary follows op value (places _)).bind fun _ => parallel_pure _
  | .binary op lhs rhs _ =>
    rw [Expr.respan, Expr.eval, Expr.eval]
    apply parallel_nested follows _ (places _)
    refine (parallel_asValue lhs.parallel_eval).bind fun left => ?_
    refine (parallel_asValue rhs.parallel_eval).bind fun right => ?_
    exact (parallel_binary follows op left right (places _)).bind fun _ => parallel_pure _
  | .declare d _ =>
    rw [Expr.respan, Expr.eval, Expr.eval]
    apply parallel_nested follows _ (places _)
    exact d.parallel_eval.bind fun _ => parallel_pure _
  | .assign target value _ =>
    rw [Expr.respan, Expr.eval, Expr.eval]
    apply parallel_nested follows _ (places _)
    refine (parallel_asValue value.parallel_eval).bind fun v => ?_
    have written := steps.assign (i := target) (j := target.respan f) rfl (places _) v
    exact written.bind fun _ => parallel_pure _
  | .block body _ =>
    rw [Expr.respan, Expr.eval, Expr.eval]
    apply parallel_nested follows _ (places _)
    exact body.parallel_eval
  | .cond branches _ =>
    rw [Expr.respan, Expr.eval, Expr.eval]
    apply parallel_nested follows _ (places _)
    exact branches.parallel_eval
  | .loop vars body _ =>
    rw [Expr.respan, Expr.eval, Expr.eval]
    apply parallel_nested follows _ (places _)
    refine (Declaration.parallel_evalVariables [] vars).bind_map fun aside => ?_
    refine (parallel_untilExit body.parallel_eval rounds).bind fun value => ?_
    rw [Declaration.names_respanAll]
    exact (steps.restore _ aside).bind fun _ => parallel_pure _
  | .exit kind none _ =>
    rw [Expr.respan, Expr.eval, Expr.eval]
    apply parallel_nested follows _ (places _)
    exact parallel_pure _
  | .exit kind (some value) _ =>
    rw [Expr.respan, Expr.eval, Expr.eval]
    apply parallel_nested follows _ (places _)
    exact (parallel_asValue value.parallel_eval).bind fun _ => parallel_pure _
  | .call callee arguments _ =>
    rw [Expr.respan, Expr.eval, Expr.eval]
    apply parallel_nested follows _ (places _)
    refine (Expr.parallel_evalAll arguments).bind fun values => ?_
    dsimp only [Ident.respan]
    split
    · exact parallel_reported follows _ (places _) _
    · refine (parallel_call follows _ values).bind fun result => ?_
      cases result with
      | ok value => exact parallel_pure _
      | error cause => exact parallel_reported follows _ (places _) _

theorem Expr.parallel_evalAll (es : List Expr) :
    Parallel R (Expr.evalAll rounds es) (Expr.evalAll rounds (Expr.respanAll f es)) := by
  match es with
  | [] => exact parallel_pure []
  | e :: rest =>
    rw [Expr.respanAll, Expr.evalAll, Expr.evalAll]
    refine (parallel_asValue e.parallel_eval).bind fun value => ?_
    exact (Expr.parallel_evalAll rest).bind fun _ => parallel_pure _

theorem Expr.parallel_evalEntries (es : List (Expr × Expr)) :
    Parallel R (Expr.evalEntries rounds es)
      (Expr.evalEntries rounds (Expr.respanEntries f es)) := by
  match es with
  | [] => exact parallel_pure []
  | (key, value) :: rest =>
    rw [Expr.respanEntries, Expr.evalEntries, Expr.evalEntries]
    refine (parallel_asValue key.parallel_eval).bind fun k => ?_
    refine (parallel_asValue value.parallel_eval).bind fun v => ?_
    exact (Expr.parallel_evalEntries rest).bind fun _ => parallel_pure _

theorem Declaration.parallel_eval (d : Declaration) :
    Parallel R (d.eval rounds) ((d.respan f).eval rounds) := by
  match d with
  | .mk binding name type value _ =>
    rw [Declaration.respan, Declaration.eval, Declaration.eval, type.type_respan,
      value.span_respan]
    refine (parallel_asValue value.parallel_eval).bind fun v => ?_
    exact steps.declare binding (i := name) (j := name.respan f) rfl type.type v (places _)

theorem Declaration.parallel_evalVariables (earlier : List String) (ds : List Declaration) :
    Parallel R (List.map (Prod.map id entry) <$> Declaration.evalVariables rounds earlier ds)
      (Declaration.evalVariables rounds earlier (Declaration.respanAll f ds)) := by
  match ds with
  | [] => exact parallel_pure []
  | d :: rest =>
    rw [Declaration.respanAll, Declaration.evalVariables, Declaration.evalVariables,
      d.name_respan]
    simp only [map_bind]
    refine (steps.setAside _).bind_map fun previous => ?_
    refine d.parallel_eval.bind fun _ => ?_
    refine (Declaration.parallel_evalVariables _ rest).bind_map fun aside => ?_
    cases previous with
    | none => exact parallel_pure _
    | some kept =>
      dsimp only [Option.map_some]
      split <;> exact parallel_pure _

theorem Block.parallel_eval (b : Block) :
    Parallel R (b.eval rounds) ((b.respan f).eval rounds) := by
  match b with
  | .mk statements _ =>
    rw [Block.respan, Block.eval, Block.eval]
    exact steps.inScope (Expr.parallel_evalStatements statements)

theorem Expr.parallel_evalStatements (statements : List Expr) :
    Parallel R (Expr.evalStatements rounds statements)
      (Expr.evalStatements rounds (Expr.respanAll f statements)) := by
  match statements with
  | [] => exact parallel_pure _
  | statement :: rest =>
    rw [Expr.respanAll, Expr.evalStatements, Expr.evalStatements]
    refine statement.parallel_eval.bind fun result => ?_
    split
    · exact parallel_pure _
    · exact Expr.parallel_evalStatements rest

theorem Conditional.parallel_eval (b : Conditional) :
    Parallel R (b.eval rounds) ((b.respan f).eval rounds) := by
  match b with
  | .only condition body =>
    rw [Conditional.respan, Conditional.eval, Conditional.eval, condition.span_respan]
    refine (parallel_asValue condition.parallel_eval).bind fun value => ?_
    exact parallel_choice follows value body.parallel_eval (parallel_pure _) (places _)
  | .withElse condition body otherwise =>
    rw [Conditional.respan, Conditional.eval, Conditional.eval, condition.span_respan]
    refine (parallel_asValue condition.parallel_eval).bind fun value => ?_
    exact parallel_choice follows value body.parallel_eval otherwise.parallel_eval (places _)
  | .withElseIf condition body next _ =>
    rw [Conditional.respan, Conditional.eval, Conditional.eval, condition.span_respan]
    refine (parallel_asValue condition.parallel_eval).bind fun value => ?_
    exact parallel_choice follows value body.parallel_eval next.parallel_eval (places _)

end

end ExprLang
