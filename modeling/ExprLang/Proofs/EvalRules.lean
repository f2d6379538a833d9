import ExprLang.Proofs.EvalRun
import ExprLang.Proofs.Subexpr

set_option autoImplicit false

/-!
Properties of evaluations that go from single steps to whole runs. A property need only be shown of
each kind of step; that it holds of the evaluation of every expression is proved here, once, by
going through the syntax. The spans to which a step may lay trouble are kept track of.
-/

namespace ExprLang

namespace EvalM

/-- A property of evaluations that all the steps have, and that passes to what is made of them.
Trouble is laid to spans with the property `Q`. -/
structure Rules {σ : Type} [Sink σ] (Q : Span → Prop) (P : {α : Type} → EvalM σ α → Prop) :
    Prop where
  pure : ∀ {α : Type} (a : α), P (Pure.pure a : EvalM σ α)
  bind : ∀ {α β : Type} {x : EvalM σ α} {f : α → EvalM σ β}, P x → (∀ a, P (f a)) → P (x >>= f)
  report : ∀ (cause : RuntimeError) {span : Span}, Q span → P (report cause span)
  write : ∀ piece : String, P (write piece)
  nested : ∀ {span : Span} {node : EvalM σ (Control Value)}, Q span → P node → P (nested span node)
  inScope : ∀ {α : Type} {node : EvalM σ α}, P node → P (inScope node)
  outOfRounds : ∀ {α : Type}, P (throw .outOfRounds : EvalM σ α)
  lookup : ∀ {ident : Ident}, Q ident.span → P (lookup ident)
  declare : ∀ (binding : Binding) (name : Ident) (declared : Ty) (value : Value) {span : Span},
    Q span → P (declare binding name declared value span)
  assign : ∀ {target : Ident} (value : Value), Q target.span → P (assign target value)
  setAside : ∀ name : String, P (setAside name)
  rescope : ∀ f : Scopes Value → Scopes Value,
    P (modify fun m => { m with scopes := f m.scopes } : EvalM σ Unit)

namespace Rules

variable {σ α : Type} [Sink σ] {Q : Span → Prop} {P : {α : Type} → EvalM σ α → Prop}
  (rules : Rules Q P)

include rules

/-- Goes on with a value that stands in. -/
theorem reported (cause : RuntimeError) {span : Span} (place : Q span) (a : α) :
    P (do EvalM.report cause span; Pure.pure a) :=
  rules.bind (rules.report cause place) fun _ => rules.pure a

theorem asValue {node : EvalM σ (Control Value)} (h : P node) : P (EvalM.asValue node) :=
  rules.bind h fun _ => rules.pure _

theorem untilExit {body : EvalM σ (Control Value)} (h : P body) (rounds : Nat) :
    P (EvalM.untilExit body rounds) := by
  induction rounds with
  | zero => exact rules.outOfRounds
  | succ rounds ih =>
    rw [EvalM.untilExit]
    apply rules.bind h
    intro result
    split
    · exact rules.pure _
    · exact ih

theorem settle (result : Except OperationError Value) {span : Span} (place : Q span) :
    P (EvalM.settle result span) := by
  cases result with
  | ok value => exact rules.pure value
  | error error => exact rules.reported _ place _

theorem settleTest (result : Except OperationError Bool) {span : Span} (place : Q span) :
    P (EvalM.settleTest result span) := by
  cases result with
  | ok b => exact rules.pure _
  | error error => exact rules.reported _ place _

theorem binary (op : BinaryOp) (lhs rhs : Value) {span : Span} (place : Q span) :
    P (op.eval lhs rhs span) := by
  cases op with
  | add | subtract | multiply | divide | modulo | index => exact rules.settle _ place
  | equal => exact rules.settleTest (.ok (lhs.equal rhs)) place
  | and | or | greater | less | greaterEqual | lessEqual => exact rules.settleTest _ place

theorem unary (op : UnaryOp) (operand : Value) {span : Span} (place : Q span) :
    P (op.eval operand span) := by
  cases op <;> exact rules.settle _ place

theorem choice (value : Value) {span : Span} (place : Q span) {x y : EvalM σ (Control Value)}
    (yes : P x) (no : P y) :
    P (match value with
      | .bool true => x
      | .bool false => y
      | other => do
        EvalM.report (.nonBoolCondition other.type) span
        Pure.pure (.normal .none)) := by
  split
  · exact yes
  · exact no
  · exact rules.reported _ place _

theorem forM {f : Value → EvalM σ PUnit} (each : ∀ v, P (f v)) (values : List Value) :
    P (values.forM f) := by
  induction values with
  | nil => exact rules.pure _
  | cons v values ih => exact rules.bind (each v) fun _ => ih

theorem writeLine (text : String) : P (EvalM.writeLine text) :=
  rules.bind (rules.write text) fun _ => rules.write "\n"

theorem call (f : Builtin) (arguments : List Value) : P (f.call arguments) := by
  cases f with
  | print =>
    exact rules.bind (rules.forM (fun v => rules.write v.render) arguments) fun _ => rules.pure _
  | println =>
    have lines : P (do
        arguments.forM fun v => EvalM.writeLine v.render
        Pure.pure (.ok .none : Except RuntimeError Value)) :=
      rules.bind (rules.forM (fun v => rules.writeLine v.render) arguments) fun _ => rules.pure _
    rw [Builtin.call]
    split
    · exact rules.bind (rules.writeLine "") fun _ => lines
    · exact lines
  | len =>
    rcases arguments with _ | ⟨v, _ | ⟨w, rest⟩⟩
    · exact rules.pure _
    · rw [Builtin.call]
      cases v.len <;> exact rules.pure _
    · exact rules.pure _

end Rules

end EvalM

open EvalM

section Syntax

variable {σ : Type} [Sink σ] {Q : Span → Prop} {P : {α : Type} → EvalM σ α → Prop}
  (rules : Rules Q P) {rounds : Nat}

include rules

theorem Expr.obeys_evalAll {es : List Expr} (h : ∀ e ∈ es, P (e.eval rounds)) :
    P (Expr.evalAll rounds es) := by
  induction es with
  | nil => exact rules.pure []
  | cons e rest ih =>
    obtain ⟨first, others⟩ := List.forall_mem_cons.1 h
    rw [Expr.evalAll]
    apply rules.bind (rules.asValue first)
    intro value
    exact rules.bind (ih others) fun _ => rules.pure _

theorem Expr.obeys_evalEntries {entries : List (Expr × Expr)}
    (h : ∀ e ∈ entries, P (e.1.eval rounds) ∧ P (e.2.eval rounds)) :
    P (Expr.evalEntries rounds entries) := by
  induction entries with
  | nil => exact rules.pure []
  | cons entry rest ih =>
    obtain ⟨⟨first, second⟩, others⟩ := List.forall_mem_cons.1 h
    obtain ⟨key, value⟩ := entry
    rw [Expr.evalEntries]
    apply rules.bind (rules.asValue first)
    intro k
    apply rules.bind (rules.asValue second)
    intro v
    exact rules.bind (ih others) fun _ => rules.pure _

theorem Expr.obeys_evalStatements {statements : List Expr}
    (h : ∀ s ∈ statements, P (s.eval rounds)) : P (Expr.evalStatements rounds statements) := by
  induction statements with
  | nil => exact rules.pure _
  | cons statement rest ih =>
    obtain ⟨first, others⟩ := List.forall_mem_cons.1 h
    rw [Expr.evalStatements]
    apply rules.bind first
    intro result
    split
    · exact rules.pure _
    · exact ih others

theorem Block.obeys_eval {body : Block} (h : ∀ s ∈ body.statements, P (s.eval rounds)) :
    P (body.eval rounds) := by
  rw [Block.eval_eq]
  exact rules.inScope (Expr.obeys_evalStatements rules h)

theorem Declaration.obeys_eval {d : Declaration} (place : Q d.value.span)
    (h : P (d.value.eval rounds)) : P (d.eval rounds) := by
  obtain ⟨binding, name, type, value, span⟩ := d
  rw [Declaration.eval]
  apply rules.bind (rules.asValue h)
  intro v
  exact rules.declare _ _ _ _ place

theorem Declaration.obeys_evalVariables {vars : List Declaration}
    (h : ∀ d ∈ vars, Q d.value.span ∧ P (d.value.eval rounds)) (earlier : List String) :
    P (Declaration.evalVariables rounds earlier vars) := by
  induction vars generalizing earlier with
  | nil => exact rules.pure []
  | cons d rest ih =>
    obtain ⟨⟨place, first⟩, others⟩ := List.forall_mem_cons.1 h
    rw [Declaration.evalVariables]
    apply rules.bind (rules.setAside _)
    intro previous
    apply rules.bind (Declaration.obeys_eval rules place first)
    intro _
    apply rules.bind (ih others _)
    intro aside
    cases previous with
    | none => exact rules.pure _
    | some entry => exact rules.pure _

theorem Conditional.obeys_eval (branches : Conditional)
    (h : ∀ e ∈ branches.children, Q e.span ∧ P (e.eval rounds)) : P (branches.eval rounds) := by
  cases branches with
  | only condition body =>
    obtain ⟨⟨place, first⟩, inside⟩ := List.forall_mem_cons.1 h
    have yes := Block.obeys_eval rules fun s among => (inside s among).2
    rw [Conditional.eval]
    apply rules.bind (rules.asValue first)
    intro value
    exact rules.choice value place yes (rules.pure _)
  | withElse condition body otherwise =>
    obtain ⟨⟨place, first⟩, inside⟩ := List.forall_mem_cons.1 h
    obtain ⟨left, right⟩ := List.forall_mem_append.1 inside
    have yes := Block.obeys_eval rules fun s among => (left s among).2
    have no := Block.obeys_eval rules fun s among => (right s among).2
    rw [Conditional.eval]
    apply rules.bind (rules.asValue first)
    intro value
    exact rules.choice value place yes no
  | withElseIf condition body next nextSpan =>
    obtain ⟨⟨place, first⟩, inside⟩ := List.forall_mem_cons.1 h
    obtain ⟨left, right⟩ := List.forall_mem_append.1 inside
    have yes := Block.obeys_eval rules fun s among => (left s among).2
    rw [Conditional.eval]
    apply rules.bind (rules.asValue first)
    intro value
    exact rules.choice value place yes (next.obeys_eval right)

/-- What the rules tell of the steps holds of the evaluation of every expression. -/
theorem Expr.obeys_eval {e : Expr} (places : e.Blames Q) : P (e.eval rounds) := by
  induction e using Expr.childInduction with
  | step e ih =>
  have own := places.self
  have place := places.span
  have each : ∀ x ∈ e.children, Q x.span ∧ P (x.eval rounds) := fun x child =>
    ⟨Expr.Blames.span (places.child child), ih x child (places.child child)⟩
  have inside : ∀ x ∈ e.children, P (x.eval rounds) := fun x child => (each x child).2
  cases e with
  | literal =>
    rw [Expr.eval]
    exact rules.nested place (rules.pure _)
  | list items =>
    rw [Expr.eval]
    apply rules.nested place
    exact rules.bind (Expr.obeys_evalAll rules inside) fun _ => rules.pure _
  | map entries =>
    have parts : ∀ entry ∈ entries, P (entry.1.eval rounds) ∧ P (entry.2.eval rounds) := by
      intro entry among
      constructor
      · exact inside _ (List.mem_flatMap.2 ⟨entry, among, by simp⟩)
      · exact inside _ (List.mem_flatMap.2 ⟨entry, among, by simp⟩)
    rw [Expr.eval]
    apply rules.nested place
    exact rules.bind (Expr.obeys_evalEntries rules parts) fun _ => rules.pure _
  | name ident =>
    rw [Expr.eval]
    apply rules.nested place
    exact rules.bind (rules.lookup (own _ (by simp [blamed]))) fun _ => rules.pure _
  | unary op operand =>
    rw [Expr.eval]
    apply rules.nested place
    apply rules.bind (rules.asValue (inside operand (by simp [children])))
    intro value
    exact rules.bind (rules.unary op value place) fun _ => rules.pure _
  | binary op lhs rhs =>
    rw [Expr.eval]
    apply rules.nested place
    apply rules.bind (rules.asValue (inside lhs (by simp [children])))
    intro left
    apply rules.bind (rules.asValue (inside rhs (by simp [children])))
    intro right
    exact rules.bind (rules.binary op left right place) fun _ => rules.pure _
  | declare d =>
    obtain ⟨value, used⟩ := each d.value (by simp [children])
    rw [Expr.eval]
    apply rules.nested place
    exact rules.bind (Declaration.obeys_eval rules value used) fun _ => rules.pure _
  | assign target value =>
    have name := own target.span (by simp [blamed])
    rw [Expr.eval]
    apply rules.nested place
    apply rules.bind (rules.asValue (inside value (by simp [children])))
    intro written
    exact rules.bind (rules.assign written name) fun _ => rules.pure _
  | block body =>
    rw [Expr.eval]
    exact rules.nested place (Block.obeys_eval rules inside)
  | cond branches =>
    rw [Expr.eval]
    exact rules.nested place (branches.obeys_eval rules each)
  | loop vars body =>
    obtain ⟨values, statements⟩ := List.forall_mem_append.1 each
    have initial : ∀ d ∈ vars, Q d.value.span ∧ P (d.value.eval rounds) :=
      fun d among => values d.value (List.mem_map_of_mem among)
    have round := Block.obeys_eval rules fun s among => (statements s among).2
    rw [Expr.eval]
    apply rules.nested place
    apply rules.bind (Declaration.obeys_evalVariables rules initial [])
    intro aside
    apply rules.bind (rules.untilExit round rounds)
    intro value
    exact rules.bind (rules.rescope (·.restore _ aside)) fun _ => rules.pure _
  | exit kind value =>
    cases value with
    | none =>
      rw [Expr.eval]
      exact rules.nested place (rules.pure _)
    | some value =>
      rw [Expr.eval]
      apply rules.nested place
      exact rules.bind (rules.asValue (inside value (by simp [children]))) fun _ => rules.pure _
  | call callee arguments =>
    have name := own callee.span (by simp [blamed])
    rw [Expr.eval]
    apply rules.nested place
    apply rules.bind (Expr.obeys_evalAll rules inside)
    intro values
    split
    · exact rules.reported _ name _
    · apply rules.bind (rules.call _ values)
      intro result
      cases result with
      | ok value => exact rules.pure _
      | error cause => exact rules.reported cause name _

theorem Program.obeys_eval {p : Program} (places : ∀ s ∈ p, s.Blames Q) :
    P (Program.eval rounds p) :=
  Expr.obeys_evalStatements rules fun s among => Expr.obeys_eval rules (places s among)

end Syntax

end ExprLang
