import ExprLang.Proofs.CheckerExits

set_option autoImplicit false

/-!
A clean check of an expression is a clean check of each of its parts, from the state in which the
parts before it have left the checker.
-/

namespace ExprLang

/-- The sub-expressions whose values an expression uses, in the order of their evaluation. -/
def Expr.operands : Expr → List Expr
  | list items _ => items
  | map entries _ => entries.flatMap fun entry => [entry.1, entry.2]
  | unary _ operand _ => [operand]
  | binary _ lhs rhs _ => [lhs, rhs]
  | declare declaration _ => [declaration.value]
  | assign _ value _ => [value]
  | exit _ value _ => value.toList
  | call _ arguments _ => arguments
  | _ => []

theorem Expr.operands_subset (e : Expr) : e.operands ⊆ e.children := by
  cases e with
  | block | cond | loop => exact List.nil_subset _
  | _ => exact List.Subset.refl _

open CheckM

variable {c : Checker}

theorem CheckM.clean_of_bind {α β : Type} {x : CheckM α} {f : α → CheckM β}
    (balanced : ∀ a, Balanced False (f a)) (clean : ((x >>= f).run c).2.Clean) :
    (x.run c).2.Clean :=
  (balanced _ _).clean clean

theorem CheckM.nested_of_clean {span : Span} {node : CheckM (Control Ty)}
    (clean : ((nested span node).run c).2.Clean) : (node.run c.deeper).2.Clean := by
  rw [run_nested] at clean
  split at clean
  · exact absurd clean (c.not_clean_noted _ _)
  · exact clean

theorem Expr.clean_of_asValue {e : Expr} (clean : ((asValue e.span e.check).run c).2.Clean) :
    (e.check.run c.opened).2.Clean := by
  rw [(asValue_of_clean clean).1] at clean
  exact clean

section Operands

theorem Expr.checkArguments_append (first rest : List Expr) (c : Checker) :
    ((Expr.checkArguments (first ++ rest)).run c).2 =
      ((Expr.checkArguments rest).run ((Expr.checkArguments first).run c).2).2 := by
  induction first generalizing c with
  | nil => rfl
  | cons argument first ih =>
    rw [List.cons_append, Expr.checkArguments, Expr.checkArguments, run_bind, run_bind, run_bind,
      run_bind]
    exact ih _

theorem Expr.clean_argument {before after : List Expr} {x : Expr}
    (clean : ((Expr.checkArguments (before ++ x :: after)).run c).2.Clean) :
    ((Expr.checkArguments before).run c).2.Clean ∧
      (x.check.run ((Expr.checkArguments before).run c).2.opened).2.Clean := by
  rw [Expr.checkArguments_append, Expr.checkArguments, run_bind, run_bind] at clean
  have here := (Expr.anyhow_checkArguments after _).clean clean
  exact ⟨(x.anyhow_asValue _).clean here, Expr.clean_of_asValue here⟩

theorem Expr.clean_single {x : Expr} (used : ((asValue x.span x.check).run c).2.Clean) :
    ((Expr.checkArguments [x]).run c).2.Clean := used

/-- Without complaints, the items of a list are checked like any operands. -/
theorem Expr.checkItems_of_clean {element : Ty} {items : List Expr}
    (clean : ((Expr.checkItems element items).run c).2.Clean) :
    ((Expr.checkItems element items).run c).2 = ((Expr.checkArguments items).run c).2 := by
  induction items generalizing c with
  | nil => rfl
  | cons item rest ih =>
    rw [Expr.checkItems, run_bind, run_complainIf] at *
    obtain ⟨-, eq⟩ := Checker.clean_notedIf ((Expr.anyhow_checkItems element rest _).clean clean)
    rw [eq] at clean ⊢
    exact ih clean

theorem Expr.checkEntries_of_clean {key value : Ty} {entries : List (Expr × Expr)}
    (clean : ((Expr.checkEntries key value entries).run c).2.Clean) :
    ((Expr.checkEntries key value entries).run c).2 =
      ((Expr.checkArguments
        (entries.flatMap fun (entry : Expr × Expr) => [entry.1, entry.2])).run c).2 := by
  induction entries generalizing c with
  | nil => rfl
  | cons entry rest ih =>
    obtain ⟨k, v⟩ := entry
    rw [Expr.checkEntries, run_bind, run_complainIf, run_bind, run_complainIf] at *
    have later := (Expr.anyhow_checkEntries key value rest _).clean clean
    obtain ⟨-, eq⟩ := Checker.clean_notedIf later
    rw [eq] at clean later ⊢
    obtain ⟨-, eq⟩ := Checker.clean_notedIf ((v.anyhow_asValue _).clean later)
    rw [eq] at clean ⊢
    exact ih clean

/-- The operands are checked one after the other, before anything else happens. -/
theorem Expr.clean_operands {e : Expr} (clean : (e.check.run c).2.Clean) :
    ((Expr.checkArguments e.operands).run c.deeper).2.Clean := by
  have start : c.deeper.Clean := (e.anyhow_check c).clean clean
  cases e with
  | literal | name | block | cond | loop => exact start
  | list items =>
    cases items with
    | nil => exact start
    | cons first rest =>
      rw [Expr.check] at clean
      have clean := nested_of_clean clean
      rw [run_bind, run_bind, run_pure, Expr.checkItems_of_clean clean] at clean
      exact clean
  | map entries =>
    cases entries with
    | nil => exact start
    | cons entry rest =>
      obtain ⟨key, value⟩ := entry
      rw [Expr.check] at clean
      have clean := nested_of_clean clean
      rw [run_bind, run_bind, run_bind, run_pure, Expr.checkEntries_of_clean clean] at clean
      exact clean
  | unary op operand =>
    rw [Expr.check] at clean
    exact Expr.clean_single (clean_of_bind
      (fun _ => (balanced_settle _ _).bind fun _ => balanced_pure _) (nested_of_clean clean))
  | binary op lhs rhs =>
    rw [Expr.check] at clean
    have clean := nested_of_clean clean
    rw [run_bind] at clean
    have used : ((asValue rhs.span rhs.check).run
        ((asValue lhs.span lhs.check).run c.deeper).2).2.Clean :=
      clean_of_bind (fun _ => (balanced_settle _ _).bind fun _ => balanced_pure _) clean
    exact used
  | declare d =>
    obtain ⟨declare, eq, balanced⟩ := d.check_eq
    rw [Expr.check, eq] at clean
    have clean := clean_of_bind (fun _ => balanced_pure _) (nested_of_clean clean)
    exact Expr.clean_single (clean_of_bind balanced clean)
  | assign target value =>
    rw [Expr.check] at clean
    exact Expr.clean_single (clean_of_bind
      (fun _ => (balanced_assign _ _ _ _).bind fun _ => balanced_pure _) (nested_of_clean clean))
  | exit kind value =>
    cases value with
    | none => exact start
    | some value =>
      rw [Expr.check] at clean
      exact Expr.clean_single (clean_of_bind
        (fun _ => (balanced_recordExit _ _).bind fun _ => balanced_pure _) (nested_of_clean clean))
  | call callee arguments =>
    rw [Expr.check] at clean
    refine clean_of_bind (fun types => ?_) (nested_of_clean clean)
    cases Builtin.ofName? callee.name with
    | none => exact (balanced_report _ _).bind fun _ => balanced_pure _
    | some f => exact (balanced_settle _ _).bind fun _ => balanced_pure _

end Operands

section Statements

theorem Expr.checkStatements_append (exit? : Option (Control Ty)) (first rest : List Expr)
    (c : Checker) :
    (Expr.checkStatements exit? (first ++ rest)).run c =
      (Expr.checkStatements ((Expr.checkStatements exit? first).run c).1 rest).run
        ((Expr.checkStatements exit? first).run c).2 := by
  induction first generalizing exit? c with
  | nil => rfl
  | cons statement first ih =>
    rw [List.cons_append, Expr.checkStatements, Expr.checkStatements, run_bind, run_bind]
    split
    · rw [run_bind, run_bind]
      exact ih _ _
    · exact ih _ _

theorem Expr.clean_statement {exit? : Option (Control Ty)} {before after : List Expr} {x : Expr}
    (clean : ((Expr.checkStatements exit? (before ++ x :: after)).run c).2.Clean) :
    ((Expr.checkStatements exit? before).run c).2.Clean ∧
      (x.check.run ((Expr.checkStatements exit? before).run c).2).2.Clean := by
  rw [Expr.checkStatements_append] at clean
  have here : (x.check.run ((Expr.checkStatements exit? before).run c).2).2.Clean := by
    rw [Expr.checkStatements, run_bind] at clean
    split at clean
    · rw [run_bind] at clean
      have marked := (Expr.kept_checkStatements_some _ after _).clean clean
      rwa [liftM_step, Checker.Clean, errors_updateUnreachable] at marked
    · exact (Expr.kept_checkStatements (fun s (_ : s ∈ after) => s.anyhow_check) _ _).clean clean
  exact ⟨(x.anyhow_check _).clean here, here⟩

/-- Inside a clean block, each statement is clean. -/
theorem Block.clean_statement {body : Block} {before after : List Expr} {x : Expr}
    (split : body.statements = before ++ x :: after) (clean : (body.check.run c).2.Clean) :
    ((Expr.checkStatements none before).run c.entered).2.Clean ∧
      (x.check.run ((Expr.checkStatements none before).run c.entered).2).2.Clean := by
  have inside := (Block.check_inside body c).2.1.symm.trans clean
  rw [split] at inside
  exact Expr.clean_statement inside

end Statements

section Variables

theorem Declaration.run_checkVariables_cons (earlier : List String) (d : Declaration)
    (rest : List Declaration) (c : Checker) :
    ((Declaration.checkVariables earlier (d :: rest)).run c).2 =
      ((Declaration.checkVariables (d.name.name :: earlier) rest).run
        (d.check.run (c.erased d.name.name)).2).2 := by
  rw [Declaration.run_checkVariables]

/-- What came before matters for what is set aside, but not for the state of the checker. -/
theorem Declaration.checkVariables_append (earlier : List String) (first rest : List Declaration)
    (c : Checker) :
    ∃ earlier', ((Declaration.checkVariables earlier (first ++ rest)).run c).2 =
      ((Declaration.checkVariables earlier' rest).run
        ((Declaration.checkVariables earlier first).run c).2).2 := by
  induction first generalizing earlier c with
  | nil => exact ⟨earlier, rfl⟩
  | cons d first ih =>
    obtain ⟨earlier', eq⟩ := ih (d.name.name :: earlier) (d.check.run (c.erased d.name.name)).2
    refine ⟨earlier', ?_⟩
    rw [Declaration.run_checkVariables_cons, ← eq, List.cons_append,
      Declaration.run_checkVariables_cons]

theorem Declaration.clean_value {d : Declaration} (clean : (d.check.run c).2.Clean) :
    (d.value.check.run c.opened).2.Clean := by
  obtain ⟨declare, eq, balanced⟩ := d.check_eq
  rw [eq] at clean
  exact Expr.clean_of_asValue (clean_of_bind balanced clean)

theorem Declaration.clean_variable {before after : List Declaration} {d : Declaration}
    (clean : ((Declaration.checkVariables [] (before ++ d :: after)).run c).2.Clean) :
    ((Declaration.checkVariables [] before).run c).2.Clean ∧
      (d.value.check.run (((Declaration.checkVariables [] before).run c).2.erased
        d.name.name).opened).2.Clean := by
  obtain ⟨earlier, eq⟩ := Declaration.checkVariables_append [] before (d :: after) c
  rw [eq, Declaration.run_checkVariables_cons] at clean
  have here := (Declaration.anyhow_checkVariables _ after _).clean clean
  have before : (((Declaration.checkVariables [] before).run c).2.erased d.name.name).Clean :=
    (d.anyhow_check _).clean here
  exact ⟨before, Declaration.clean_value here⟩

end Variables

section Loops

theorem Expr.clean_loop {vars : List Declaration} {body : Block} {span : Span}
    (clean : ((Expr.loop vars body span).check.run c).2.Clean) :
    ((Declaration.checkVariables [] vars).run c.deeper).2.Clean ∧
      (body.check.run ((Declaration.checkVariables [] vars).run c.deeper).2.opened).2.Clean := by
  rw [Expr.check_loop] at clean
  have inside : (body.check.run
      ((Declaration.checkVariables [] vars).run c.deeper).2.opened).2.Clean := nested_of_clean clean
  have kept : Checker.Kept False 0 ((Declaration.checkVariables [] vars).run c.deeper).2.opened _ :=
    body.anyhow_check _
  exact ⟨kept.clean inside, inside⟩

end Loops

section Conditionals

/-- The condition, and the block that it guards. -/
theorem Conditional.clean_guarded {condition : Expr} {body : Block}
    {rest : Control Ty → CheckM (Control Ty)} (balanced : ∀ first, Balanced False (rest first))
    (clean : ((do
      let type ← asValue condition.span condition.check
      if type.name ≠ .bool then
        report (.nonBoolCondition type) condition.span
      let first ← body.check
      rest first : CheckM (Control Ty)).run c).2.Clean) :
    ((asValue condition.span condition.check).run c).2.Clean ∧
      (body.check.run ((asValue condition.span condition.check).run c).2).2.Clean ∧
      ∃ first, ((rest first).run
        (body.check.run ((asValue condition.span condition.check).run c).2).2).2.Clean := by
  rw [run_bind, run_reportIf, run_bind] at clean
  have inside := (balanced _ _).clean clean
  have before : Balanced False body.check := body.anyhow_check
  obtain ⟨-, eq⟩ := Checker.clean_notedIf ((before _).clean inside)
  rw [eq] at clean inside
  exact ⟨(before _).clean inside, inside, _, clean⟩

variable {span : Span}

theorem Conditional.clean_body {branches : Conditional}
    (clean : ((branches.check span).run c).2.Clean) :
    ((asValue branches.condition.span branches.condition.check).run c).2.Clean ∧
      (branches.body.check.run
        ((asValue branches.condition.span branches.condition.check).run c).2).2.Clean := by
  cases branches with
  | only condition body =>
    rw [Conditional.check] at clean
    obtain ⟨first, second, -⟩ := clean_guarded (fun _ => balanced_pure _) clean
    exact ⟨first, second⟩
  | withElse condition body otherwise =>
    rw [Conditional.check] at clean
    obtain ⟨first, second, -⟩ := clean_guarded
      (fun _ => otherwise.anyhow_check.bind fun _ => balanced_join _ _ _ _) clean
    exact ⟨first, second⟩
  | withElseIf condition body next nextSpan =>
    rw [Conditional.check] at clean
    obtain ⟨first, second, -⟩ := clean_guarded
      (fun _ => (next.anyhow_check nextSpan).bind fun _ => balanced_join _ _ _ _) clean
    exact ⟨first, second⟩

theorem Conditional.clean_otherwise {condition : Expr} {body otherwise : Block}
    (clean : (((Conditional.withElse condition body otherwise).check span).run c).2.Clean) :
    (otherwise.check.run (body.check.run
      ((asValue condition.span condition.check).run c).2).2).2.Clean := by
  rw [Conditional.check] at clean
  obtain ⟨-, -, first, rest⟩ := clean_guarded
    (fun _ => otherwise.anyhow_check.bind fun _ => balanced_join _ _ _ _) clean
  exact clean_of_bind (fun _ => balanced_join _ _ _ _) rest

theorem Conditional.clean_next {condition : Expr} {body : Block} {next : Conditional}
    {nextSpan : Span}
    (clean : (((Conditional.withElseIf condition body next nextSpan).check span).run c).2.Clean) :
    ((next.check nextSpan).run (body.check.run
      ((asValue condition.span condition.check).run c).2).2).2.Clean := by
  rw [Conditional.check] at clean
  obtain ⟨-, -, first, rest⟩ := clean_guarded
    (fun _ => (next.anyhow_check nextSpan).bind fun _ => balanced_join _ _ _ _) clean
  exact clean_of_bind (fun _ => balanced_join _ _ _ _) rest

end Conditionals

end ExprLang
