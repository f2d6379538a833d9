import ExprLang.Proofs.CheckerBalance

set_option autoImplicit false

/-!
Properties of checks that go from the steps of the checker to whole checks. A property need only be
shown of each kind of step; that it holds of the check of every expression is proved here, once, by
going through the syntax. The spans to which a step may lay a complaint are kept track of.
-/

namespace ExprLang

namespace CheckM

/-- A property of checks that all the steps of the checker have, and that passes to what is made of
them. Complaints are laid to spans with the property `Q`. -/
structure Rules (Q : Span → Prop) (P : {α : Type} → CheckM α → Prop) : Prop where
  pure : ∀ {α : Type} (a : α), P (Pure.pure a : CheckM α)
  bind : ∀ {α β : Type} {x : CheckM α} {f : α → CheckM β}, P x → (∀ a, P (f a)) → P (x >>= f)
  report : ∀ (cause : TypeError) {span : Span}, Q span → P (report cause span)
  nested : ∀ {span : Span} {node : CheckM (Control Ty)}, Q span → P node → P (nested span node)
  consuming : ∀ {α : Type} {node : CheckM α}, Balanced False node → P node → P (consuming node)
  recordExit : ∀ (type : Ty) {span : Span}, Q span → P (recordExit type span)
  lookup : ∀ {ident : Ident}, Q ident.span → P (lookup ident)
  assign : ∀ {target : Ident} (actual : Ty) (site : Unit → String) {span : Span},
    Q target.span → Q span → P (assign target actual site span)
  setAside : ∀ name : String, P (setAside name)
  rescope : ∀ f : Scopes Ty → Scopes Ty,
    P (modify fun c => { c with scopes := f c.scopes } : CheckM Unit)
  leave : P (updateUnreachable (· + 1))
  block : ∀ {body : Block}, P (Expr.checkStatements none body.statements) → P body.check

namespace Rules

variable {Q : Span → Prop} {P : {α : Type} → CheckM α → Prop} (rules : Rules Q P)

include rules

/-- The usual way to complain: under a condition, before going on. -/
theorem reportIf {α : Type} (reason : Prop) [Decidable reason] (cause : TypeError) {span : Span}
    (place : Q span) {next : Unit → CheckM α} (h : P (next ())) :
    P (if reason then CheckM.report cause span >>= next else next ()) := by
  split
  · exact rules.bind (rules.report cause place) fun _ => h
  · exact h

theorem settle (verdict : Verdict) {span : Span} (place : Q span) :
    P (CheckM.settle verdict span) := by
  obtain ⟨type, complaint⟩ := verdict
  cases complaint with
  | none => exact rules.pure type
  | some cause => exact rules.bind (rules.report cause place) fun _ => rules.pure type

theorem asValue {span : Span} (place : Q span) {node : CheckM (Control Ty)}
    (balanced : Balanced False node) (h : P node) : P (CheckM.asValue span node) := by
  refine rules.bind (rules.consuming balanced h) fun found => ?_
  dsimp only
  split
  · exact rules.reportIf _ _ place (rules.pure _)
  · exact rules.pure _

theorem join (first other : Control Ty) (compare : Bool) {span : Span} (place : Q span) :
    P (CheckM.join first other compare span) := by
  unfold CheckM.join
  exact rules.reportIf _ _ place (rules.pure _)

end Rules

end CheckM

open CheckM

section Syntax

variable {Q : Span → Prop} {P : {α : Type} → CheckM α → Prop} (rules : Rules Q P)

/-- The check of the expression has the property, and complaints are laid to its span. -/
structure Expr.Obeys (Q : Span → Prop) (P : {α : Type} → CheckM α → Prop) (e : Expr) : Prop where
  span : Q e.span
  check : P e.check

include rules

theorem Expr.Obeys.asValue {e : Expr} (h : e.Obeys Q P) : P (asValue e.span e.check) :=
  rules.asValue h.span e.anyhow_check h.check

theorem Expr.obeys_checkItems {items : List Expr} (h : ∀ e ∈ items, e.Obeys Q P) (element : Ty) :
    P (Expr.checkItems element items) := by
  induction items with
  | nil => exact rules.pure ()
  | cons item rest ih =>
    obtain ⟨first, others⟩ := List.forall_mem_cons.1 h
    rw [Expr.checkItems]
    apply rules.bind (first.asValue rules)
    intro actual
    exact rules.reportIf _ _ first.span (ih others)

theorem Expr.obeys_checkEntries {entries : List (Expr × Expr)}
    (h : ∀ e ∈ entries, e.1.Obeys Q P ∧ e.2.Obeys Q P) (key value : Ty) :
    P (Expr.checkEntries key value entries) := by
  induction entries with
  | nil => exact rules.pure ()
  | cons entry rest ih =>
    obtain ⟨⟨first, second⟩, others⟩ := List.forall_mem_cons.1 h
    obtain ⟨k, v⟩ := entry
    rw [Expr.checkEntries]
    apply rules.bind (first.asValue rules)
    intro actual
    apply rules.reportIf _ _ first.span
    apply rules.bind (second.asValue rules)
    intro actual
    exact rules.reportIf _ _ second.span (ih others)

theorem Expr.obeys_checkArguments {arguments : List Expr} (h : ∀ e ∈ arguments, e.Obeys Q P) :
    P (Expr.checkArguments arguments) := by
  induction arguments with
  | nil => exact rules.pure []
  | cons argument rest ih =>
    obtain ⟨first, others⟩ := List.forall_mem_cons.1 h
    rw [Expr.checkArguments]
    apply rules.bind (first.asValue rules)
    intro type
    exact rules.bind (ih others) fun types => rules.pure _

theorem Expr.obeys_checkStatements {statements : List Expr}
    (h : ∀ s ∈ statements, s.Obeys Q P) (exit? : Option (Control Ty)) :
    P (Expr.checkStatements exit? statements) := by
  induction statements generalizing exit? with
  | nil => exact rules.pure exit?
  | cons statement rest ih =>
    obtain ⟨first, others⟩ := List.forall_mem_cons.1 h
    rw [Expr.checkStatements]
    apply rules.bind first.check
    intro result
    split
    · exact rules.bind rules.leave fun _ => ih others _
    · exact ih others _

theorem Block.obeys_check {body : Block} (h : ∀ s ∈ body.statements, s.Obeys Q P) :
    P body.check :=
  rules.block (Expr.obeys_checkStatements rules h none)

theorem Declaration.obeys_check {d : Declaration} (h : d.value.Obeys Q P) : P d.check := by
  obtain ⟨binding, name, type, value, span⟩ := d
  rw [Declaration.check]
  apply rules.bind (h.asValue rules)
  intro actual
  apply rules.reportIf _ _ h.span
  exact rules.bind (rules.rescope (·.insert name.name ⟨type.type, binding⟩)) fun _ => rules.pure _

theorem Declaration.obeys_checkVariables {vars : List Declaration}
    (h : ∀ d ∈ vars, d.value.Obeys Q P) (earlier : List String) :
    P (Declaration.checkVariables earlier vars) := by
  induction vars generalizing earlier with
  | nil => exact rules.pure []
  | cons d rest ih =>
    obtain ⟨first, others⟩ := List.forall_mem_cons.1 h
    rw [Declaration.checkVariables]
    apply rules.bind (rules.setAside _)
    intro previous
    apply rules.bind (Declaration.obeys_check rules first)
    intro _
    apply rules.bind (ih others _)
    intro aside
    cases previous with
    | none => exact rules.pure _
    | some entry => exact rules.pure _

theorem Conditional.obeys_check (branches : Conditional) {span : Span}
    (places : ∀ s ∈ branches.blamed span, Q s) (h : ∀ e ∈ branches.children, e.Obeys Q P) :
    P (branches.check span) := by
  cases branches with
  | only condition body =>
    obtain ⟨first, inside⟩ := List.forall_mem_cons.1 h
    rw [Conditional.check]
    apply rules.bind (first.asValue rules)
    intro type
    apply rules.reportIf _ _ first.span
    exact rules.bind (Block.obeys_check rules inside) fun _ => rules.pure _
  | withElse condition body otherwise =>
    obtain ⟨first, inside⟩ := List.forall_mem_cons.1 h
    obtain ⟨yes, no⟩ := List.forall_mem_append.1 inside
    rw [Conditional.check]
    apply rules.bind (first.asValue rules)
    intro type
    apply rules.reportIf _ _ first.span
    apply rules.bind (Block.obeys_check rules yes)
    intro result
    apply rules.bind (Block.obeys_check rules no)
    intro other
    exact rules.join _ _ _ (places _ (List.mem_cons_self ..))
  | withElseIf condition body next nextSpan =>
    obtain ⟨first, inside⟩ := List.forall_mem_cons.1 h
    obtain ⟨yes, no⟩ := List.forall_mem_append.1 inside
    obtain ⟨place, later⟩ := List.forall_mem_cons.1 places
    rw [Conditional.check]
    apply rules.bind (first.asValue rules)
    intro type
    apply rules.reportIf _ _ first.span
    apply rules.bind (Block.obeys_check rules yes)
    intro result
    apply rules.bind (next.obeys_check later no)
    intro other
    exact rules.join _ _ _ place

/-- What the rules tell of the steps holds of the check of every expression. -/
theorem Expr.obeys {e : Expr} (places : e.Blames Q) : e.Obeys Q P := by
  induction e using Expr.childInduction with
  | step e ih =>
  have own := places.self
  have inside : ∀ x ∈ e.children, x.Obeys Q P := fun x child => ih x child (places.child child)
  refine ⟨places.span, ?_⟩
  have place := places.span
  cases e with
  | literal =>
    rw [Expr.check]
    exact rules.nested place (rules.pure _)
  | list items =>
    cases items with
    | nil =>
      rw [Expr.check]
      exact rules.nested place (rules.pure _)
    | cons first rest =>
      obtain ⟨one, others⟩ := List.forall_mem_cons.1 inside
      rw [Expr.check]
      apply rules.nested place
      apply rules.bind (one.asValue rules)
      intro element
      exact rules.bind (Expr.obeys_checkItems rules others element) fun _ => rules.pure _
  | map entries =>
    have parts : ∀ entry ∈ entries, entry.1.Obeys Q P ∧ entry.2.Obeys Q P := by
      intro entry among
      constructor
      · exact inside _ (List.mem_flatMap.2 ⟨entry, among, by simp⟩)
      · exact inside _ (List.mem_flatMap.2 ⟨entry, among, by simp⟩)
    cases entries with
    | nil =>
      rw [Expr.check]
      exact rules.nested place (rules.pure _)
    | cons entry rest =>
      obtain ⟨⟨first, second⟩, others⟩ := List.forall_mem_cons.1 parts
      obtain ⟨key, value⟩ := entry
      rw [Expr.check]
      apply rules.nested place
      apply rules.bind (first.asValue rules)
      intro keyType
      apply rules.bind (second.asValue rules)
      intro valueType
      exact rules.bind (Expr.obeys_checkEntries rules others _ _) fun _ => rules.pure _
  | name ident =>
    rw [Expr.check]
    apply rules.nested place
    exact rules.bind (rules.lookup (own _ (by simp [blamed]))) fun _ => rules.pure _
  | unary op operand =>
    have used := inside operand (by simp [children])
    rw [Expr.check]
    apply rules.nested place
    apply rules.bind (used.asValue rules)
    intro type
    exact rules.bind (rules.settle _ used.span) fun _ => rules.pure _
  | binary op lhs rhs span =>
    have left := inside lhs (by simp [children])
    have right := inside rhs (by simp [children])
    rw [Expr.check]
    apply rules.nested place
    apply rules.bind (left.asValue rules)
    intro leftType
    apply rules.bind (right.asValue rules)
    intro rightType
    refine rules.bind (rules.settle _ ?_) fun _ => rules.pure _
    split
    · exact right.span
    · exact place
  | declare d =>
    have value := inside d.value (by simp [children])
    rw [Expr.check]
    apply rules.nested place
    exact rules.bind (Declaration.obeys_check rules value) fun _ => rules.pure _
  | assign target value =>
    have used := inside value (by simp [children])
    have name := own target.span (by simp [blamed])
    rw [Expr.check]
    apply rules.nested place
    apply rules.bind (used.asValue rules)
    intro actual
    exact rules.bind (rules.assign _ _ name used.span) fun _ => rules.pure _
  | block body =>
    rw [Expr.check]
    exact rules.nested place (Block.obeys_check rules inside)
  | cond branches =>
    rw [Expr.check]
    apply rules.nested place
    exact branches.obeys_check rules (fun s among => own s (List.mem_cons_of_mem _ among)) inside
  | loop vars body =>
    obtain ⟨values, statements⟩ := List.forall_mem_append.1 inside
    have initial : ∀ d ∈ vars, d.value.Obeys Q P :=
      fun d among => values d.value (List.mem_map_of_mem among)
    rw [Expr.check]
    apply rules.nested place
    apply rules.bind (Declaration.obeys_checkVariables rules initial [])
    intro aside
    apply rules.bind (rules.consuming body.anyhow_check (Block.obeys_check rules statements))
    intro found
    exact rules.bind (rules.rescope (·.restore _ aside)) fun _ => rules.pure _
  | exit kind value =>
    cases value with
    | none =>
      rw [Expr.check]
      apply rules.nested place
      exact rules.bind (rules.recordExit _ place) fun _ => rules.pure _
    | some value =>
      have used := inside value (by simp [children])
      rw [Expr.check]
      apply rules.nested place
      apply rules.bind (used.asValue rules)
      intro type
      exact rules.bind (rules.recordExit _ place) fun _ => rules.pure _
  | call callee arguments =>
    have name := own callee.span (by simp [blamed])
    rw [Expr.check]
    apply rules.nested place
    apply rules.bind (Expr.obeys_checkArguments rules inside)
    intro types
    split
    · exact rules.bind (rules.settle _ name) fun _ => rules.pure _
    · exact rules.bind (rules.report _ name) fun _ => rules.pure _

theorem Program.obeys_check {p : Program} (places : ∀ s ∈ p, s.Blames Q) :
    P (Program.check p) := by
  induction p with
  | nil => exact rules.pure _
  | cons statement rest ih =>
    obtain ⟨first, others⟩ := List.forall_mem_cons.1 places
    rw [Program.check]
    apply rules.bind (Expr.obeys rules first).check
    intro result
    exact rules.bind (ih others) fun _ => rules.pure _

end Syntax

end ExprLang
