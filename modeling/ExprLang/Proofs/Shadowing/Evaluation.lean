import ExprLang.Proofs.Frames
import ExprLang.Proofs.Shadowing.Scopes

set_option autoImplicit false

/-!
What becomes of the scopes when something is evaluated. Without declarations and assignments they
bind the same as before; a block, whatever stands in it, neither adds names to the frame around it
nor takes names away. A loop is both, one after the other, between two changes that cancel out.
-/

namespace ExprLang

open Scopes

namespace EvalM

variable {σ α β : Type} {R : Scopes Value → Scopes Value → Prop}

/-- If the evaluation comes to an end, then from scopes to scopes that `R` relates. -/
def Moves (R : Scopes Value → Scopes Value → Prop) (x : EvalM σ α) : Prop :=
  ∀ m, x.Ends m (fun _ m' => R m.scopes m'.scopes) fun _ => True

/-- A result carries over to the next step as a whole. -/
theorem Moves.ends_bind {x : EvalM σ α} {f : α → EvalM σ β} (first : Moves R x) {m : Machine σ}
    {Q : β → Machine σ → Prop}
    (rest : ∀ a m', R m.scopes m'.scopes → (f a).Ends m' Q fun _ => True) :
    (x >>= f).Ends m Q fun _ => True := by
  rw [EvalM.ends_bind]
  exact (first m).mono rest fun _ _ => trivial

section Preorder

variable [IsPreorder (Scopes Value) R]

theorem moves_pure (a : α) : Moves R (pure a : EvalM σ α) :=
  fun m => refl_of R m.scopes

theorem Moves.bind {x : EvalM σ α} {f : α → EvalM σ β} (first : Moves R x)
    (rest : ∀ a, Moves R (f a)) : Moves R (x >>= f) := by
  intro m
  apply first.ends_bind
  intro a m' step
  exact (rest a m').mono (fun _ _ => trans_of R step) fun _ _ => trivial

theorem moves_report (cause : RuntimeError) (span : Span) :
    Moves R (report cause span : EvalM σ Unit) :=
  fun m => refl_of R m.scopes

/-- Goes on with a value that stands in. -/
theorem moves_reported (cause : RuntimeError) (span : Span) (a : α) :
    Moves R (do report cause span; pure a : EvalM σ α) :=
  (moves_report cause span).bind fun _ => moves_pure a

theorem moves_nested {x : EvalM σ (Control Value)} (h : Moves R x) (span : Span) :
    Moves R (nested span x) := by
  intro m
  rw [ends_nested]
  split
  · exact refl_of R m.scopes
  · exact h m.deeper

theorem moves_asValue {x : EvalM σ (Control Value)} (h : Moves R x) : Moves R (asValue x) :=
  h.bind fun _ => moves_pure _

theorem moves_untilExit {x : EvalM σ (Control Value)} (h : Moves R x) (rounds : Nat) :
    Moves R (untilExit x rounds) := by
  induction rounds with
  | zero => exact fun _ => trivial
  | succ rounds ih =>
    rw [untilExit]
    apply h.bind
    intro result
    split
    · exact moves_pure _
    · exact ih

theorem moves_settle (result : Except OperationError Value) (span : Span) :
    Moves R (settle result span : EvalM σ Value) := by
  cases result with
  | ok value => exact moves_pure value
  | error error => exact moves_reported _ _ _

theorem moves_settleTest (result : Except OperationError Bool) (span : Span) :
    Moves R (settleTest result span : EvalM σ Value) := by
  cases result with
  | ok b => exact moves_pure _
  | error error => exact moves_reported _ _ _

theorem moves_binary (op : BinaryOp) (lhs rhs : Value) (span : Span) :
    Moves R (op.eval lhs rhs span : EvalM σ Value) := by
  cases op with
  | add | subtract | multiply | divide | modulo | index => exact moves_settle _ span
  | equal => exact moves_settleTest (.ok (lhs.equal rhs)) span
  | and | or | greater | less | greaterEqual | lessEqual => exact moves_settleTest _ span

theorem moves_unary (op : UnaryOp) (operand : Value) (span : Span) :
    Moves R (op.eval operand span : EvalM σ Value) := by
  cases op <;> exact moves_settle _ span

theorem moves_lookup (ident : Ident) : Moves R (lookup ident : EvalM σ Value) := by
  intro m
  rw [ends_lookup]
  split <;> exact refl_of R m.scopes

theorem moves_choice (value : Value) (span : Span) {x y : EvalM σ (Control Value)}
    (yes : Moves R x) (no : Moves R y) :
    Moves R (match value with
      | .bool true => x
      | .bool false => y
      | other => do
        report (.nonBoolCondition other.type) span
        pure (.normal .none)) := by
  split
  · exact yes
  · exact no
  · exact moves_reported _ _ _

theorem moves_forM {f : Value → EvalM σ PUnit} (each : ∀ v, Moves R (f v)) (values : List Value) :
    Moves R (values.forM f) := by
  induction values with
  | nil => exact moves_pure _
  | cons v values ih => exact (each v).bind fun _ => ih

variable [Sink σ]

theorem moves_write (piece : String) : Moves R (write piece : EvalM σ Unit) :=
  fun m => refl_of R m.scopes

theorem moves_writeLine (text : String) : Moves R (writeLine text : EvalM σ Unit) :=
  (moves_write text).bind fun _ => moves_write "\n"

theorem moves_call (f : Builtin) (arguments : List Value) :
    Moves R (f.call arguments : EvalM σ _) := by
  cases f with
  | print =>
    exact (moves_forM (fun v => moves_write v.render) arguments).bind fun _ => moves_pure _
  | println =>
    have lines := (moves_forM (fun v => moves_writeLine (σ := σ) v.render) arguments).bind
      fun _ => moves_pure (R := R) (Except.ok Value.none : Except RuntimeError Value)
    rw [Builtin.call]
    split
    · exact (moves_writeLine "").bind fun _ => lines
    · exact lines
  | len =>
    rcases arguments with _ | ⟨v, _ | ⟨w, rest⟩⟩
    · exact moves_pure _
    · rw [Builtin.call]
      cases v.len <;> exact moves_pure _
    · exact moves_pure _

end Preorder

theorem unchanged_inScope {x : EvalM σ α} (h : Moves Unchanged x) :
    Moves Unchanged (inScope x) := by
  intro m
  rw [ends_inScope]
  exact (h m.entered).mono (fun _ _ => Unchanged.exit) fun _ _ => trivial

theorem ends_setAside (name : String) {m : Machine σ} {Q : Option (Entry Value) → Machine σ → Prop}
    {E : Machine σ → Prop} :
    (setAside name).Ends m Q E ↔ Q (m.scopes.current.get? name) (m.erased name) := Iff.rfl

theorem bound_declare (binding : Binding) (name : Ident) (declared : Ty) (value : Value)
    (span : Span) (m : Machine σ) :
    (declare binding name declared value span).Ends m
      (fun kept m' => m'.scopes = m.scopes.insert name.name ⟨kept, binding⟩) fun _ => True := by
  rw [ends_declare]
  split <;> rfl

end EvalM

open EvalM

variable {σ : Type} [Sink σ] {rounds : Nat}

/-! ### Loops -/

/-- The variables of a loop, if their initial values leave the scopes as they are. -/
theorem Declaration.shadows_evalVariables {vars : List Declaration}
    (initial : ∀ d ∈ vars, Moves Unchanged (d.value.eval rounds : EvalM σ _))
    (earlier : List String) (m : Machine σ) :
    (Declaration.evalVariables rounds earlier vars).Ends m
      (fun aside m' => Shadows earlier (vars.map (·.name.name)) m.scopes aside m'.scopes)
      fun _ => True := by
  induction vars generalizing earlier m with
  | nil => exact .nil m.scopes
  | cons d rest ih =>
    obtain ⟨first, others⟩ := List.forall_mem_cons.1 initial
    obtain ⟨binding, name, type, value, span⟩ := d
    rw [Declaration.evalVariables, Declaration.eval, EvalM.ends_bind]
    refine (ends_setAside _).2 ?_
    rw [bind_assoc]
    apply (moves_asValue first).ends_bind
    intro v m₁ found
    rw [EvalM.ends_bind]
    refine (bound_declare binding name type.type v value.span m₁).mono ?_ fun _ _ => trivial
    intro kept m₂ bound
    rw [EvalM.ends_bind]
    refine (ih others (name.name :: earlier) m₂).mono ?_ fun _ _ => trivial
    intro aside m₃ later
    rw [bound] at later
    have whole : Shadows earlier (name.name :: rest.map (·.name.name)) m.scopes
        (setAsideFirst earlier name.name (m.scopes.current.get? name.name) aside) m₃.scopes :=
      .cons found later
    rw [Declaration.name]
    generalize m.scopes.current.get? name.name = previous at whole
    cases previous with
    | none => exact whole
    | some entry => exact whole

/-- A loop whose variables and whose body are known. -/
theorem Expr.ends_loop {vars : List Declaration} {body : Block} (span : Span)
    {R : Scopes Value → Scopes Value → Prop} [IsPreorder (Scopes Value) R]
    (initial : ∀ d ∈ vars, Moves Unchanged (d.value.eval rounds : EvalM σ _))
    (again : Moves R (body.eval rounds : EvalM σ _)) {m : Machine σ}
    {Q : Control Value → Machine σ → Prop}
    (tooDeep : ∀ m' : Machine σ, m'.scopes = m.scopes → Q (.normal .none) m')
    (ended : ∀ result aside t (m' : Machine σ),
      Shadows [] (vars.map (·.name.name)) m.scopes aside t → R t m'.scopes →
      Q result { m' with scopes := m'.scopes.restore (vars.map (·.name.name)) aside }) :
    ((Expr.loop vars body span).eval rounds).Ends m Q fun _ => True := by
  rw [Expr.eval, ends_nested]
  split
  · exact tooDeep _ rfl
  · rw [EvalM.ends_bind]
    refine (Declaration.shadows_evalVariables initial [] m.deeper).mono ?_ fun _ _ => trivial
    intro aside m₁ shadows
    apply (moves_untilExit again rounds).ends_bind
    intro value m₂ rounds
    exact ended _ aside m₁.scopes m₂.shallower shadows rounds

/-! ### Expressions that bind nothing -/

theorem Expr.unchanged_evalAll {es : List Expr}
    (h : ∀ e ∈ es, Moves Unchanged (e.eval rounds : EvalM σ _)) :
    Moves Unchanged (Expr.evalAll rounds es : EvalM σ _) := by
  induction es with
  | nil => exact moves_pure []
  | cons e rest ih =>
    obtain ⟨first, others⟩ := List.forall_mem_cons.1 h
    rw [Expr.evalAll]
    apply (moves_asValue first).bind
    intro value
    exact (ih others).bind fun _ => moves_pure _

theorem Expr.unchanged_evalEntries {entries : List (Expr × Expr)}
    (h : ∀ e ∈ entries, Moves Unchanged (e.1.eval rounds : EvalM σ _) ∧
      Moves Unchanged (e.2.eval rounds : EvalM σ _)) :
    Moves Unchanged (Expr.evalEntries rounds entries : EvalM σ _) := by
  induction entries with
  | nil => exact moves_pure []
  | cons entry rest ih =>
    obtain ⟨⟨first, second⟩, others⟩ := List.forall_mem_cons.1 h
    obtain ⟨key, value⟩ := entry
    rw [Expr.evalEntries]
    apply (moves_asValue first).bind
    intro k
    apply (moves_asValue second).bind
    intro v
    exact (ih others).bind fun _ => moves_pure _

theorem Block.unchanged_eval {body : Block}
    (h : ∀ s ∈ body.statements, Moves Unchanged (s.eval rounds : EvalM σ _)) :
    Moves Unchanged (body.eval rounds : EvalM σ _) := by
  rw [Block.eval_eq]
  apply unchanged_inScope
  generalize body.statements = statements at h
  induction statements with
  | nil => exact moves_pure _
  | cons statement rest ih =>
    obtain ⟨first, others⟩ := List.forall_mem_cons.1 h
    rw [Expr.evalStatements]
    apply first.bind
    intro result
    split
    · exact moves_pure _
    · exact ih others

theorem Conditional.unchanged_eval (branches : Conditional)
    (h : ∀ e ∈ branches.children, Moves Unchanged (e.eval rounds : EvalM σ _)) :
    Moves Unchanged (branches.eval rounds : EvalM σ _) := by
  match branches with
  | .only condition body =>
    obtain ⟨first, inside⟩ := List.forall_mem_cons.1 h
    rw [Conditional.eval]
    apply (moves_asValue first).bind
    intro value
    exact moves_choice value _ (Block.unchanged_eval inside) (moves_pure _)
  | .withElse condition body otherwise =>
    obtain ⟨first, inside⟩ := List.forall_mem_cons.1 h
    obtain ⟨yes, no⟩ := List.forall_mem_append.1 inside
    rw [Conditional.eval]
    apply (moves_asValue first).bind
    intro value
    exact moves_choice value _ (Block.unchanged_eval yes) (Block.unchanged_eval no)
  | .withElseIf condition body next _ =>
    obtain ⟨first, inside⟩ := List.forall_mem_cons.1 h
    obtain ⟨yes, no⟩ := List.forall_mem_append.1 inside
    rw [Conditional.eval]
    apply (moves_asValue first).bind
    intro value
    exact moves_choice value _ (Block.unchanged_eval yes) (next.unchanged_eval no)

theorem Expr.unchanged_eval (rounds : Nat) {e : Expr} (h : e.Bindless) :
    Moves Unchanged (e.eval rounds : EvalM σ _) := by
  induction e using Expr.childInduction with
  | step e ih =>
  have inside : ∀ x ∈ e.children, Moves Unchanged (x.eval rounds : EvalM σ _) :=
    fun x child => ih x child (h.child child)
  cases e with
  | literal =>
    rw [Expr.eval]
    exact moves_nested (moves_pure _) _
  | list items =>
    rw [Expr.eval]
    exact moves_nested ((Expr.unchanged_evalAll inside).bind fun _ => moves_pure _) _
  | map entries =>
    have parts : ∀ entry ∈ entries, Moves Unchanged (entry.1.eval rounds : EvalM σ _) ∧
        Moves Unchanged (entry.2.eval rounds : EvalM σ _) := by
      intro entry among
      constructor
      · exact inside _ (List.mem_flatMap.2 ⟨entry, among, by simp⟩)
      · exact inside _ (List.mem_flatMap.2 ⟨entry, among, by simp⟩)
    rw [Expr.eval]
    exact moves_nested ((Expr.unchanged_evalEntries parts).bind fun _ => moves_pure _) _
  | name ident =>
    rw [Expr.eval]
    exact moves_nested ((moves_lookup ident).bind fun _ => moves_pure _) _
  | unary op operand =>
    rw [Expr.eval]
    apply moves_nested
    apply (moves_asValue (inside operand (by simp [children]))).bind
    intro value
    exact (moves_unary op value _).bind fun _ => moves_pure _
  | binary op lhs rhs =>
    rw [Expr.eval]
    apply moves_nested
    apply (moves_asValue (inside lhs (by simp [children]))).bind
    intro left
    apply (moves_asValue (inside rhs (by simp [children]))).bind
    intro right
    exact (moves_binary op left right _).bind fun _ => moves_pure _
  | declare | assign => exact Bool.noConfusion h.self
  | block body =>
    rw [Expr.eval]
    exact moves_nested (Block.unchanged_eval inside) _
  | cond branches =>
    rw [Expr.eval]
    exact moves_nested (branches.unchanged_eval inside) _
  | loop vars body =>
    intro m
    obtain ⟨values, statements⟩ := List.forall_mem_append.1 inside
    have initial : ∀ d ∈ vars, Moves Unchanged (d.value.eval rounds : EvalM σ _) :=
      fun d among => values _ (List.mem_map_of_mem among)
    apply Expr.ends_loop _ initial (Block.unchanged_eval statements)
    · intro m' same
      rw [same]
      exact .refl _
    · intro result aside t m' shadows after
      exact shadows.restore after
  | exit kind value =>
    cases value with
    | none =>
      rw [Expr.eval]
      exact moves_nested (moves_pure _) _
    | some value =>
      rw [Expr.eval]
      apply moves_nested
      exact (moves_asValue (inside value (by simp [children]))).bind fun _ => moves_pure _
  | call callee arguments =>
    rw [Expr.eval]
    apply moves_nested
    apply (Expr.unchanged_evalAll inside).bind
    intro values
    split
    · exact moves_reported _ _ _
    · apply (moves_call _ values).bind
      intro result
      cases result with
      | ok value => exact moves_pure _
      | error cause => exact moves_reported _ _ _

/-! ### Blocks -/

theorem Frame.Kept.isSome_get? {f g : Frame Value} (h : f.Kept g) (name : String) :
    (g.get? name).isSome = (f.get? name).isSome := by
  have kept := h name
  generalize f.get? name = a at kept
  generalize g.get? name = b at kept
  cases kept <;> rfl

/-- A block may write to the frame around it, but the names there stay the same. -/
theorem Block.sameNames_eval (rounds : Nat) (body : Block) :
    Moves SameNames (body.eval rounds : EvalM σ _) := by
  intro m
  -- Under observation the labels are the same after the block, and the entries still fit them.
  have same := body.erases_watch rounds (m.watched m.scopes.labels) m rfl
  have still := body.still_eval (guarding_watching σ) rounds (m.watched m.scopes.labels)
    (Machine.faithful_watched m.scopes.tracks_labels)
  unfold Ends at *
  generalize (body.watch rounds).run (m.watched m.scopes.labels) = left at same still
  generalize (body.eval rounds).run m = right at same
  cases same with
  | out related => trivial
  | @ok result watched m' related =>
    obtain ⟨faithful, labels⟩ := still
    have tracks := faithful.tracks
    have scopes : watched.scopes = m'.scopes := congrArg Machine.scopes related
    rw [labels, scopes] at tracks
    constructor
    · exact (Frame.forall₂_kept tracks.outer).length_eq.symm
    · exact tracks.current.kept.isSome_get?

end ExprLang
