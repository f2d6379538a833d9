import ExprLang.Proofs.CheckerBalance
import ExprLang.Proofs.Shadowing.Scopes

set_option autoImplicit false

/-!
What becomes of the scopes when something is checked. Without declarations and assignments they bind
the same as before, and a loop needs that of the initial values of its variables only: its body has
a frame of its own, and the checker never writes to the frames around.
-/

namespace ExprLang

open Scopes

namespace CheckM

variable {α β : Type}

/-- Checking leaves the scopes bound as they are. -/
def Leaves (x : CheckM α) : Prop :=
  ∀ c, Unchanged c.scopes (x.run c).2.scopes

theorem leaves_pure (a : α) : Leaves (pure a) :=
  fun c => .refl c.scopes

theorem Leaves.bind {x : CheckM α} {f : α → CheckM β} (first : Leaves x)
    (rest : ∀ a, Leaves (f a)) : Leaves (x >>= f) := by
  intro c
  rw [run_bind]
  exact (first c).trans (rest _ _)

/-- A step that has to do with other things. -/
theorem leaves_of_scopes {x : CheckM α} (h : ∀ c, (x.run c).2.scopes = c.scopes) : Leaves x := by
  intro c
  rw [h c]
  exact .refl c.scopes

theorem leaves_report (cause : TypeError) (span : Span) : Leaves (report cause span) :=
  leaves_of_scopes fun _ => rfl

theorem leaves_reportIf {reason : Prop} [Decidable reason] (cause : TypeError) (span : Span)
    {next : Unit → CheckM α} (h : Leaves (next ())) :
    Leaves (if reason then report cause span >>= next else next ()) := by
  intro c
  rw [run_reportIf]
  have after := h (c.notedIf reason cause span)
  rwa [Checker.scopes_notedIf] at after

theorem leaves_settle (verdict : Verdict) (span : Span) : Leaves (settle verdict span) := by
  apply leaves_of_scopes
  intro c
  rw [run_settle]
  cases verdict.complaint <;> rfl

theorem leaves_nested (span : Span) {node : CheckM (Control Ty)} (h : Leaves node) :
    Leaves (nested span node) := by
  intro c
  rw [run_nested]
  split
  · exact .refl c.scopes
  · exact h c.deeper

theorem leaves_asValue (span : Span) {node : CheckM (Control Ty)} (h : Leaves node) :
    Leaves (asValue span node) := by
  intro c
  have inside := h c.opened
  rw [run_asValue]
  split
  · rw [Checker.scopes_notedIf]
    exact inside
  · exact inside

theorem leaves_recordExit (type : Ty) (span : Span) : Leaves (recordExit type span) := by
  apply leaves_of_scopes
  intro c
  cases exits : c.exits with
  | nil => rw [run_recordExit_top exits]
  | cons frame frames =>
    by_cases live : frame.unreachable = 0
    · cases seen : frame.type with
      | none => rw [run_recordExit_first exits live seen]
      | some expected => rw [run_recordExit_again exits live seen, Checker.scopes_notedIf]
    · rw [run_recordExit_unreachable exits live]

theorem leaves_lookup (ident : Ident) : Leaves (lookup ident) := by
  apply leaves_of_scopes
  intro c
  rw [run_lookup]
  split <;> rfl

theorem leaves_join (first other : Control Ty) (compare : Bool) (span : Span) :
    Leaves (join first other compare span) := by
  apply leaves_of_scopes
  intro c
  rw [run_join, Checker.scopes_notedIf]

end CheckM

open CheckM

theorem Block.leaves_check (body : Block) : Leaves body.check :=
  leaves_of_scopes (Block.scopes_check fun s _ => s.anyhow_check)

/-! ### Loops -/

theorem Declaration.scopes_check (binding : Binding) (name : Ident) (type : TypeExpr)
    (value : Expr) (span : Span) (c : Checker) :
    ((Declaration.mk binding name type value span).check.run c).2.scopes =
      ((asValue value.span value.check).run c).2.scopes.insert name.name ⟨type.type, binding⟩ := by
  rw [Declaration.check, run_bind, run_complainIf, run_bind, run_pure, liftM_step, declare,
    run_modify, Checker.scopes_notedIf]

/-- The variables of a loop, if their initial values leave the scopes as they are. -/
theorem Declaration.shadows_checkVariables {vars : List Declaration}
    (initial : ∀ d ∈ vars, Leaves d.value.check) (earlier : List String) (c : Checker) :
    Shadows earlier (vars.map (·.name.name)) c.scopes
      ((Declaration.checkVariables earlier vars).run c).1
      ((Declaration.checkVariables earlier vars).run c).2.scopes := by
  induction vars generalizing earlier c with
  | nil => exact .nil c.scopes
  | cons d rest ih =>
    obtain ⟨first, others⟩ := List.forall_mem_cons.1 initial
    obtain ⟨binding, name, type, value, span⟩ := d
    have found := leaves_asValue value.span first (c.erased name.name)
    have later := ih others (name.name :: earlier)
      ((Declaration.mk binding name type value span).check.run (c.erased name.name)).2
    rw [Declaration.scopes_check] at later
    rw [Declaration.run_checkVariables]
    exact .cons found later

theorem Expr.leaves_loop {vars : List Declaration} (initial : ∀ d ∈ vars, Leaves d.value.check)
    (body : Block) (span : Span) : Leaves (Expr.loop vars body span).check := by
  rw [Expr.check_loop]
  apply leaves_nested
  intro c
  have shadows := Declaration.shadows_checkVariables initial [] c
  have inside := body.leaves_check ((Declaration.checkVariables [] vars).run c).2.opened
  exact shadows.restore inside

/-! ### Expressions that bind nothing -/

theorem Expr.leaves_checkItems {items : List Expr} (element : Ty)
    (h : ∀ e ∈ items, Leaves e.check) : Leaves (Expr.checkItems element items) := by
  induction items with
  | nil => exact leaves_pure _
  | cons item rest ih =>
    obtain ⟨first, others⟩ := List.forall_mem_cons.1 h
    rw [Expr.checkItems]
    apply (leaves_asValue _ first).bind
    intro actual
    exact leaves_reportIf _ _ (ih others)

theorem Expr.leaves_checkEntries {entries : List (Expr × Expr)} (key value : Ty)
    (h : ∀ e ∈ entries, Leaves e.1.check ∧ Leaves e.2.check) :
    Leaves (Expr.checkEntries key value entries) := by
  induction entries with
  | nil => exact leaves_pure _
  | cons entry rest ih =>
    obtain ⟨⟨first, second⟩, others⟩ := List.forall_mem_cons.1 h
    obtain ⟨k, v⟩ := entry
    rw [Expr.checkEntries]
    apply (leaves_asValue _ first).bind
    intro actual
    apply leaves_reportIf
    apply (leaves_asValue _ second).bind
    intro actual
    exact leaves_reportIf _ _ (ih others)

theorem Expr.leaves_checkArguments {arguments : List Expr} (h : ∀ e ∈ arguments, Leaves e.check) :
    Leaves (Expr.checkArguments arguments) := by
  induction arguments with
  | nil => exact leaves_pure _
  | cons argument rest ih =>
    obtain ⟨first, others⟩ := List.forall_mem_cons.1 h
    rw [Expr.checkArguments]
    apply (leaves_asValue _ first).bind
    intro type
    exact (ih others).bind fun _ => leaves_pure _

theorem Conditional.leaves_check (branches : Conditional) (span : Span)
    (h : ∀ e ∈ branches.conditions, Leaves e.check) : Leaves (branches.check span) := by
  match branches with
  | .only condition body =>
    obtain ⟨first, -⟩ := List.forall_mem_cons.1 h
    rw [Conditional.check]
    apply (leaves_asValue _ first).bind
    intro type
    apply leaves_reportIf
    exact body.leaves_check.bind fun _ => leaves_pure _
  | .withElse condition body otherwise =>
    obtain ⟨first, -⟩ := List.forall_mem_cons.1 h
    rw [Conditional.check]
    apply (leaves_asValue _ first).bind
    intro type
    apply leaves_reportIf
    apply body.leaves_check.bind
    intro yes
    exact otherwise.leaves_check.bind fun no => leaves_join yes no _ _
  | .withElseIf condition body next nextSpan =>
    obtain ⟨first, later⟩ := List.forall_mem_cons.1 h
    rw [Conditional.check]
    apply (leaves_asValue _ first).bind
    intro type
    apply leaves_reportIf
    apply body.leaves_check.bind
    intro yes
    exact (next.leaves_check nextSpan later).bind fun no => leaves_join yes no _ _

theorem Expr.leaves_check {e : Expr} (h : e.Bindless) : Leaves e.check := by
  induction e using Expr.childInduction with
  | step e ih =>
  have inside : ∀ x ∈ e.children, Leaves x.check := fun x child => ih x child (h.child child)
  cases e with
  | literal =>
    rw [Expr.check]
    exact leaves_nested _ (leaves_pure _)
  | list items =>
    cases items with
    | nil =>
      rw [Expr.check]
      exact leaves_nested _ (leaves_pure _)
    | cons first rest =>
      obtain ⟨one, others⟩ := List.forall_mem_cons.1 inside
      rw [Expr.check]
      apply leaves_nested
      apply (leaves_asValue _ one).bind
      intro element
      exact (Expr.leaves_checkItems element others).bind fun _ => leaves_pure _
  | map entries =>
    have parts : ∀ entry ∈ entries, Leaves entry.1.check ∧ Leaves entry.2.check := by
      intro entry among
      constructor
      · exact inside _ (List.mem_flatMap.2 ⟨entry, among, by simp⟩)
      · exact inside _ (List.mem_flatMap.2 ⟨entry, among, by simp⟩)
    cases entries with
    | nil =>
      rw [Expr.check]
      exact leaves_nested _ (leaves_pure _)
    | cons entry rest =>
      obtain ⟨⟨first, second⟩, others⟩ := List.forall_mem_cons.1 parts
      obtain ⟨key, value⟩ := entry
      rw [Expr.check]
      apply leaves_nested
      apply (leaves_asValue _ first).bind
      intro keyType
      apply (leaves_asValue _ second).bind
      intro valueType
      exact (Expr.leaves_checkEntries _ _ others).bind fun _ => leaves_pure _
  | name ident =>
    rw [Expr.check]
    exact leaves_nested _ ((leaves_lookup ident).bind fun _ => leaves_pure _)
  | unary op operand =>
    rw [Expr.check]
    apply leaves_nested
    apply (leaves_asValue _ (inside operand (by simp [children]))).bind
    intro type
    exact (leaves_settle _ _).bind fun _ => leaves_pure _
  | binary op lhs rhs =>
    rw [Expr.check]
    apply leaves_nested
    apply (leaves_asValue _ (inside lhs (by simp [children]))).bind
    intro left
    apply (leaves_asValue _ (inside rhs (by simp [children]))).bind
    intro right
    exact (leaves_settle _ _).bind fun _ => leaves_pure _
  | declare | assign => exact Bool.noConfusion h.self
  | block body =>
    rw [Expr.check]
    exact leaves_nested _ body.leaves_check
  | cond branches =>
    rw [Expr.check]
    apply leaves_nested
    apply branches.leaves_check
    intro condition among
    exact inside condition (branches.conditions_subset among)
  | loop vars body =>
    apply Expr.leaves_loop
    intro d among
    exact inside _ (List.mem_append_left _ (List.mem_map_of_mem among))
  | exit kind value =>
    cases value with
    | none =>
      rw [Expr.check]
      exact leaves_nested _ ((leaves_recordExit _ _).bind fun _ => leaves_pure _)
    | some value =>
      rw [Expr.check]
      apply leaves_nested
      apply (leaves_asValue _ (inside value (by simp [children]))).bind
      intro type
      exact (leaves_recordExit _ _).bind fun _ => leaves_pure _
  | call callee arguments =>
    rw [Expr.check]
    apply leaves_nested
    apply (Expr.leaves_checkArguments inside).bind
    intro types
    split
    · exact (leaves_settle _ _).bind fun _ => leaves_pure _
    · exact (leaves_report _ _).bind fun _ => leaves_pure _

end ExprLang
