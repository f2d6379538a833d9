import ExprLang.Proofs.Copying.Positions
import ExprLang.Proofs.Soundness.Program

set_option autoImplicit false

/-!
The ways to the places of a program are gone whenever it is checked. What the checker has complained
of once it has checked an expression at the end of a way, it complains of first when it checks the
whole program.
-/

namespace ExprLang

namespace CheckM

variable {α β : Type} {c d : Checker} {x : Expr}

/-- When a node is checked from `c`, `x` is checked from `d`: the complaints up to there come
first. -/
def Passes (node : CheckM α) (c : Checker) (x : Expr) (d : Checker) : Prop :=
  (x.check.run d).2.errors.toList <+: (node.run c).2.errors.toList

theorem Passes.bind {node : CheckM α} {f : α → CheckM β} (h : Passes node c x d)
    (rest : ∀ a, Balanced False (f a)) : Passes (node >>= f) c x d := by
  rw [Passes, run_bind]
  exact h.trans (rest _ _).errors

theorem Passes.after {node : CheckM α} {f : α → CheckM β}
    (h : Passes (f (node.run c).1) (node.run c).2 x d) : Passes (node >>= f) c x d :=
  h

theorem Passes.afterReport {reason : Prop} [Decidable reason] {cause : TypeError} {span : Span}
    {next : Unit → CheckM α} (h : Passes (next ()) (c.notedIf reason cause span) x d) :
    Passes (if reason then report cause span >>= next else next ()) c x d := by
  rw [Passes, run_reportIf]
  exact h

theorem Passes.nested {node : CheckM (Control Ty)} (h : Passes node c.deeper x d)
    (fits : c.depth < maxNesting) (span : Span) : Passes (nested span node) c x d := by
  rw [Passes, run_nested, if_neg (Nat.not_le_of_lt fits)]
  exact h

theorem passes_asValue (x : Expr) (c : Checker) : Passes (asValue x.span x.check) c x c.opened := by
  unfold Passes
  rw [run_asValue]
  generalize x.check.run c.opened = found
  split
  · exact (Checker.Kept.notedIf found.2.closed _ _ _ : Checker.Kept False ..).errors
  · exact List.prefix_rfl

end CheckM

open CheckM

variable {c : Checker} {x : Expr}

/-! ### Rows -/

theorem Expr.checkItems_append (element : Ty) (first rest : List Expr) (c : Checker) :
    (Expr.checkItems element (first ++ rest)).run c =
      (Expr.checkItems element rest).run ((Expr.checkItems element first).run c).2 := by
  induction first generalizing c with
  | nil => rfl
  | cons item first ih =>
    rw [List.cons_append, Expr.checkItems, Expr.checkItems, run_bind, run_bind, run_complainIf,
      run_complainIf]
    exact ih _

theorem Expr.checkEntries_append (key value : Ty) (first rest : List (Expr × Expr))
    (c : Checker) :
    (Expr.checkEntries key value (first ++ rest)).run c =
      (Expr.checkEntries key value rest).run ((Expr.checkEntries key value first).run c).2 := by
  induction first generalizing c with
  | nil => rfl
  | cons entry first ih =>
    obtain ⟨k, v⟩ := entry
    rw [List.cons_append, Expr.checkEntries, Expr.checkEntries, run_bind, run_bind, run_complainIf,
      run_complainIf, run_bind, run_bind, run_complainIf, run_complainIf]
    exact ih _

theorem Expr.passes_checkItems (element : Ty) (before after : List Expr) (x : Expr) (c : Checker) :
    Passes (Expr.checkItems element (before ++ x :: after)) c x
      ((Expr.checkItems element before).run c).2.opened := by
  rw [Passes, Expr.checkItems_append, Expr.checkItems]
  apply Passes.bind (passes_asValue x _)
  intro actual
  exact balanced_reportIf _ _ (Expr.anyhow_checkItems element after)

theorem Expr.passes_key (keyType valueType : Ty) (before after : List (Expr × Expr))
    (x value : Expr) (c : Checker) :
    Passes (Expr.checkEntries keyType valueType (before ++ (x, value) :: after)) c x
      ((Expr.checkEntries keyType valueType before).run c).2.opened := by
  rw [Passes, Expr.checkEntries_append, Expr.checkEntries]
  apply Passes.bind (passes_asValue x _)
  intro actual
  apply balanced_reportIf
  exact value.anyhow_asValue.bind fun _ =>
    balanced_reportIf _ _ (Expr.anyhow_checkEntries keyType valueType after)

theorem Expr.passes_value (keyType valueType : Ty) (before after : List (Expr × Expr))
    (key x : Expr) (c : Checker) :
    let here := ((Expr.checkEntries keyType valueType before).run c).2
    let actual := (asValue key.span key.check).run here
    Passes (Expr.checkEntries keyType valueType (before ++ (key, x) :: after)) c x
      (actual.2.notedIf (actual.1 ≠ keyType) (.mixedMap keyType actual.1) key.span).opened := by
  rw [Passes, Expr.checkEntries_append, Expr.checkEntries]
  apply Passes.after
  apply Passes.afterReport
  apply Passes.bind (passes_asValue x _)
  intro actual
  exact balanced_reportIf _ _ (Expr.anyhow_checkEntries keyType valueType after)

theorem Expr.passes_checkArguments (before after : List Expr) (x : Expr) (c : Checker) :
    Passes (Expr.checkArguments (before ++ x :: after)) c x
      ((Expr.checkArguments before).run c).2.opened := by
  rw [Passes, Expr.checkArguments_append, Expr.checkArguments]
  apply Passes.bind (passes_asValue x _)
  intro type
  exact (Expr.anyhow_checkArguments after).bind fun _ => balanced_pure _

/-- The operand that is checked first, and what comes after it. -/
theorem Expr.check_operand {e : Expr} {rest : List Expr} (first : e.operands = x :: rest) :
    ∃ (span : Span) (f : Ty → CheckM (Control Ty)),
      e.check = nested span (asValue x.span x.check >>= f) ∧ ∀ type, Balanced False (f type) := by
  cases e with
  | literal | name | block | cond | loop => cases first
  | list items =>
    obtain rfl : items = x :: rest := first
    rw [Expr.check]
    exact ⟨_, _, rfl, fun _ => (Expr.anyhow_checkItems _ rest).bind fun _ => balanced_pure _⟩
  | map entries =>
    cases entries with
    | nil => cases first
    | cons entry entries =>
      obtain ⟨key, value⟩ := entry
      obtain ⟨rfl, -⟩ := List.cons.inj first
      rw [Expr.check]
      refine ⟨_, _, rfl, fun _ => value.anyhow_asValue.bind fun _ => ?_⟩
      exact (Expr.anyhow_checkEntries _ _ entries).bind fun _ => balanced_pure _
  | unary op operand =>
    obtain ⟨rfl, -⟩ := List.cons.inj first
    rw [Expr.check]
    exact ⟨_, _, rfl, fun _ => (balanced_settle _ _).bind fun _ => balanced_pure _⟩
  | binary op lhs rhs =>
    obtain ⟨rfl, -⟩ := List.cons.inj first
    rw [Expr.check]
    refine ⟨_, _, rfl, fun _ => rhs.anyhow_asValue.bind fun _ => ?_⟩
    exact (balanced_settle _ _).bind fun _ => balanced_pure _
  | declare d =>
    obtain ⟨declare, eq, balanced⟩ := d.check_eq
    obtain ⟨rfl, -⟩ := List.cons.inj first
    rw [Expr.check, eq, bind_assoc]
    exact ⟨_, _, rfl, fun actual => (balanced actual).bind fun _ => balanced_pure _⟩
  | assign target value =>
    obtain ⟨rfl, -⟩ := List.cons.inj first
    rw [Expr.check]
    exact ⟨_, _, rfl, fun _ => (balanced_assign _ _ _ _).bind fun _ => balanced_pure _⟩
  | exit kind value =>
    cases value with
    | none => cases first
    | some value =>
      obtain ⟨rfl, -⟩ := List.cons.inj first
      rw [Expr.check]
      exact ⟨_, _, rfl, fun _ => (balanced_recordExit _ _).bind fun _ => balanced_pure _⟩
  | call callee arguments =>
    obtain rfl : arguments = x :: rest := first
    rw [Expr.check, Expr.checkArguments, bind_assoc]
    refine ⟨_, _, rfl, fun _ => Balanced.bind ?_ fun types => ?_⟩
    · exact (Expr.anyhow_checkArguments rest).bind fun _ => balanced_pure _
    · cases Builtin.ofName? callee.name with
      | none => exact (balanced_report _ _).bind fun _ => balanced_pure _
      | some f => exact (balanced_settle _ _).bind fun _ => balanced_pure _

/-! ### Blocks, conditionals and loops -/

theorem Expr.passes_checkStatements (exit? : Option (Control Ty)) (before after : List Expr)
    (x : Expr) (c : Checker) :
    Passes (Expr.checkStatements exit? (before ++ x :: after)) c x
      ((Expr.checkStatements exit? before).run c).2 := by
  rw [Passes, Expr.checkStatements_append, Expr.checkStatements, run_bind]
  generalize x.check.run ((Expr.checkStatements exit? before).run c).2 = here
  split
  · have later := (Expr.kept_checkStatements_some here.1 after
      ((updateUnreachable (· + 1)).run here.2).2).errors
    rw [errors_updateUnreachable] at later
    exact later
  · exact (Expr.kept_checkStatements (fun s (_ : s ∈ after) => s.anyhow_check) _ _).errors

theorem Block.Leads.passes {body : Block} {way : Checker → Checker} (leads : body.Leads way x)
    (c : Checker) : Passes body.check c x (way c) := by
  obtain ⟨split⟩ := leads
  obtain ⟨-, errors, -⟩ := body.check_inside c
  rw [Passes, errors, split]
  exact Expr.passes_checkStatements none _ _ x c.entered

/-- A conditional is its condition and its first block, and then the rest of it. -/
theorem Conditional.run_check (branches : Conditional) (span : Span) :
    ∃ rest : Control Ty → CheckM (Control Ty), (∀ result, Balanced False (rest result)) ∧
      ∀ c, (branches.check span).run c =
        (branches.body.check >>= rest).run (branches.afterCondition c) := by
  cases branches with
  | only condition body =>
    refine ⟨fun _ => pure (.normal .none), fun _ => balanced_pure _, fun c => ?_⟩
    rw [Conditional.check, run_bind, run_complainIf]
    rfl
  | withElse condition body otherwise =>
    refine ⟨fun first => otherwise.check >>= fun other =>
      join first other true (otherwise.span.merge span), fun _ => ?_, fun c => ?_⟩
    · exact otherwise.anyhow_check.bind fun _ => balanced_join _ _ _ _
    · rw [Conditional.check, run_bind, run_complainIf]
      rfl
  | withElseIf condition body next nextSpan =>
    refine ⟨fun first => next.check nextSpan >>= fun other =>
      join first other next.isExhaustive (nextSpan.merge span), fun _ => ?_, fun c => ?_⟩
    · exact (next.anyhow_check nextSpan).bind fun _ => balanced_join _ _ _ _
    · rw [Conditional.check, run_bind, run_complainIf]
      rfl

theorem Conditional.kept_afterCondition (branches : Conditional) (c : Checker) :
    Checker.Kept False 0 c (branches.afterCondition c) :=
  (branches.condition.anyhow_asValue c).trans (.notedIf ..)

theorem Conditional.Leads.passes {branches : Conditional} {way : Checker → Checker}
    (leads : branches.Leads way x) (span : Span) (c : Checker) :
    Passes (branches.check span) c x (way c) := by
  induction leads generalizing span c with
  | @condition branches =>
    obtain ⟨rest, balanced, run⟩ := branches.run_check span
    have here := passes_asValue branches.condition c
    have noted : Checker.Kept False 0 _ (branches.afterCondition c) := .notedIf ..
    have block : Balanced False branches.body.check := branches.body.anyhow_check
    rw [Passes, run]
    exact (here.trans noted.errors).trans (block.bind balanced _).errors
  | @body branches way _ inside =>
    obtain ⟨rest, balanced, run⟩ := branches.run_check span
    rw [Passes, run]
    exact (inside.passes _).bind balanced
  | otherwise inside =>
    rw [Conditional.check]
    apply Passes.after
    apply Passes.afterReport
    apply Passes.after
    exact (inside.passes _).bind fun _ => balanced_join _ _ _ _
  | next inside ih =>
    rw [Conditional.check]
    apply Passes.after
    apply Passes.afterReport
    apply Passes.after
    exact (ih _ _).bind fun _ => balanced_join _ _ _ _

theorem Declaration.passes_check (d : Declaration) (c : Checker) :
    Passes d.check c d.value c.opened := by
  obtain ⟨declare, eq, balanced⟩ := d.check_eq
  rw [eq]
  exact (passes_asValue d.value c).bind balanced

theorem Declaration.passes_checkVariables (before after : List Declaration) (d : Declaration)
    (c : Checker) :
    Passes (Declaration.checkVariables [] (before ++ d :: after)) c d.value
      (((Declaration.checkVariables [] before).run c).2.erased d.name.name).opened := by
  obtain ⟨earlier, eq⟩ := Declaration.checkVariables_append [] before (d :: after) c
  rw [Passes, eq, Declaration.run_checkVariables_cons]
  exact (d.passes_check _).trans (Declaration.anyhow_checkVariables _ after _).errors

theorem Expr.Leads.passes {e : Expr} {way : Checker → Checker} (leads : e.Leads way x)
    (fits : c.depth < maxNesting) : Passes e.check c x (way c) := by
  cases leads with
  | operand first =>
    obtain ⟨span, f, eq, balanced⟩ := Expr.check_operand first
    rw [eq]
    exact ((passes_asValue x _).bind balanced).nested fits span
  | @rhs op lhs _ span =>
    rw [Expr.check]
    apply Passes.nested _ fits
    apply Passes.after
    apply Passes.bind (passes_asValue x _)
    intro right
    exact (balanced_settle _ _).bind fun _ => balanced_pure _
  | @item first _ before after span =>
    rw [Expr.check]
    apply Passes.nested _ fits
    apply Passes.after
    apply Passes.bind _ fun _ => balanced_pure _
    exact Expr.passes_checkItems _ before after x _
  | @firstValue key _ rest span =>
    rw [Expr.check]
    apply Passes.nested _ fits
    apply Passes.after
    apply Passes.bind (passes_asValue x _)
    intro valueType
    exact (Expr.anyhow_checkEntries _ _ rest).bind fun _ => balanced_pure _
  | @key k v _ value before after span =>
    rw [Expr.check]
    apply Passes.nested _ fits
    apply Passes.after
    apply Passes.after
    apply Passes.bind _ fun _ => balanced_pure _
    exact Expr.passes_key _ _ before after x value _
  | @value k v key _ before after span =>
    rw [Expr.check]
    apply Passes.nested _ fits
    apply Passes.after
    apply Passes.after
    apply Passes.bind _ fun _ => balanced_pure _
    exact Expr.passes_value _ _ before after key x _
  | @argument callee before after _ span =>
    rw [Expr.check]
    apply Passes.nested _ fits
    apply Passes.bind (Expr.passes_checkArguments before after x _)
    intro types
    cases Builtin.ofName? callee.name with
    | none => exact (balanced_report _ _).bind fun _ => balanced_pure _
    | some f => exact (balanced_settle _ _).bind fun _ => balanced_pure _
  | block inside =>
    rw [Expr.check]
    exact (inside.passes _).nested fits _
  | cond inside =>
    rw [Expr.check]
    exact (inside.passes _ _).nested fits _
  | @initial before after d body span =>
    rw [Expr.check_loop]
    apply Passes.nested _ fits
    have header := Declaration.passes_checkVariables before after d c.deeper
    have block : Balanced False body.check := body.anyhow_check
    exact header.trans (balanced_consuming block _).errors
  | @round vars body span way _ inside =>
    rw [Expr.check_loop]
    apply Passes.nested _ fits
    exact inside.passes _

/-! ### Programs -/

theorem Block.Leads.depth_eq {body : Block} {way : Checker → Checker} (leads : body.Leads way x)
    (c : Checker) : (way c).depth = c.depth := by
  cases leads with
  | @statement before after _ split =>
    have each : ∀ s ∈ before, Balanced False s.check := fun s _ => s.anyhow_check
    exact (Expr.kept_checkStatements each none c.entered).depth

theorem Conditional.Leads.depth_eq {branches : Conditional} {way : Checker → Checker}
    (leads : branches.Leads way x) (c : Checker) : (way c).depth = c.depth := by
  induction leads generalizing c with
  | condition => rfl
  | @body branches way _ inside =>
    exact (inside.depth_eq _).trans (branches.kept_afterCondition c).depth
  | @otherwise condition body other way _ inside =>
    have block : Balanced False body.check := body.anyhow_check
    have before := ((Conditional.withElse condition body other).kept_afterCondition c).trans
      (block _)
    exact (inside.depth_eq _).trans before.depth
  | @next condition body next span way _ inside ih =>
    have block : Balanced False body.check := body.anyhow_check
    have before := ((Conditional.withElseIf condition body next span).kept_afterCondition c).trans
      (block _)
    exact (ih _).trans before.depth

/-- What stands directly in an expression is one level further in. -/
theorem Expr.Leads.depth_eq {e : Expr} {way : Checker → Checker} (leads : e.Leads way x)
    (c : Checker) : (way c).depth = c.depth + 1 := by
  cases leads with
  | operand first => rfl
  | @rhs op lhs => exact (lhs.anyhow_asValue c.deeper).depth
  | @item first _ before =>
    exact ((first.anyhow_asValue c.deeper).trans (Expr.anyhow_checkItems _ before _)).depth
  | @firstValue key => exact (key.anyhow_asValue c.deeper).depth
  | @key k v _ value before =>
    have first := (k.anyhow_asValue c.deeper).trans (v.anyhow_asValue _)
    exact (first.trans (Expr.anyhow_checkEntries _ _ before _)).depth
  | @value k v key _ before =>
    have first := (k.anyhow_asValue c.deeper).trans (v.anyhow_asValue _)
    exact (((first.trans (Expr.anyhow_checkEntries _ _ before _)).trans
      (key.anyhow_asValue _)).trans (.notedIf ..)).depth
  | @argument callee before => exact (Expr.anyhow_checkArguments before c.deeper).depth
  | block inside => exact inside.depth_eq c.deeper
  | cond inside => exact inside.depth_eq c.deeper
  | @initial before => exact (Declaration.anyhow_checkVariables [] before c.deeper).depth
  | @round vars body span way _ inside =>
    exact (inside.depth_eq _).trans (Declaration.anyhow_checkVariables [] vars c.deeper).depth

/-- Every place that is not nested too deep is come to when the program is checked. -/
theorem Program.Leads.passes {p : Program} {way : Checker → Checker} (leads : p.Leads way x)
    (fits : (way c).depth ≤ maxNesting) : Passes (Program.check p) c x (way c) := by
  induction leads with
  | @statement before after x split =>
    rw [Passes, split, Program.check_append, Program.check, run_bind, run_bind]
    exact (Program.balanced_check after _).errors
  | @inside e x way step outside inside ih =>
    rw [inside.depth_eq] at fits
    have around := ih (Nat.le_of_succ_le fits)
    exact (inside.passes fits).trans around

end ExprLang
