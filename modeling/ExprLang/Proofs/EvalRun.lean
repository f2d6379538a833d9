import ExprLang.Eval.Machine

set_option autoImplicit false

/-!
How evaluation ends. A statement about a run says what holds when it comes to an end, and what
holds where a loop has used up its rounds; the equations here say, step by step, what that takes.
-/

namespace ExprLang

namespace Machine

variable {σ : Type}

/-- With one more error. -/
def noted (m : Machine σ) (cause : RuntimeError) (span : Span) : Machine σ :=
  { m with errors := m.errors.push ⟨cause, span⟩ }

/-- One level further in. -/
def deeper (m : Machine σ) : Machine σ :=
  { m with depth := m.depth + 1 }

/-- One level further out. -/
def shallower (m : Machine σ) : Machine σ :=
  { m with depth := m.depth - 1 }

/-- In a new frame. -/
def entered (m : Machine σ) : Machine σ :=
  { m with scopes := m.scopes.enter }

/-- Out of the current frame. -/
def left (m : Machine σ) : Machine σ :=
  { m with scopes := m.scopes.exit }

/-- With a name unbound in the current frame. -/
def erased (m : Machine σ) (name : String) : Machine σ :=
  { m with scopes := m.scopes.erase name }

end Machine

namespace EvalM

variable {σ α β : Type}

/-- Evaluation from `m` ends in a result and a state with `Q`, or runs out of rounds in a state
with `E`. -/
def Ends (node : EvalM σ α) (m : Machine σ) (Q : α → Machine σ → Prop) (E : Machine σ → Prop) :
    Prop :=
  match node.run m with
  | .ok a m' => Q a m'
  | .error _ m' => E m'

variable {m : Machine σ} {Q : α → Machine σ → Prop} {E : Machine σ → Prop}

theorem Ends.of_ok {node : EvalM σ α} {a : α} {m' : Machine σ} (h : node.Ends m Q E)
    (ran : node.run m = .ok a m') : Q a m' := by
  rwa [Ends, ran] at h

theorem Ends.mono {node : EvalM σ α} {Q' : α → Machine σ → Prop} {E' : Machine σ → Prop}
    (h : node.Ends m Q E) (result : ∀ a m', Q a m' → Q' a m') (out : ∀ m', E m' → E' m') :
    node.Ends m Q' E' := by
  unfold Ends at *
  cases ran : node.run m with
  | ok a m' => rw [ran] at h; exact result a m' h
  | error e m' => rw [ran] at h; exact out m' h

/-- In the result there is a run to speak of. -/
theorem Ends.imp {node : EvalM σ α} {Q' : α → Machine σ → Prop} (h : node.Ends m Q E)
    (result : ∀ a m', node.run m = .ok a m' → Q a m' → Q' a m') : node.Ends m Q' E := by
  unfold Ends at *
  cases ran : node.run m with
  | ok a m' => rw [ran] at h; exact result a m' ran h
  | error e m' => rw [ran] at h; exact h

/-- To end for certain is to end in one of the results. -/
theorem ends_iff_exists {node : EvalM σ α} :
    node.Ends m Q (fun _ => False) ↔ ∃ a m', node.run m = .ok a m' ∧ Q a m' := by
  unfold Ends
  cases node.run m with
  | ok a m' =>
    constructor
    · intro h
      exact ⟨a, m', rfl, h⟩
    · rintro ⟨_, _, same, h⟩
      cases same
      exact h
  | error e m' => simp

theorem run_eq_ok_iff {node : EvalM σ α} {a : α} {m' : Machine σ} :
    node.run m = .ok a m' ↔ node.Ends m (fun b n => b = a ∧ n = m') fun _ => False := by
  unfold Ends
  cases node.run m <;> simp

@[simp] theorem ends_pure (a : α) : (pure a : EvalM σ α).Ends m Q E ↔ Q a m := Iff.rfl

theorem ends_bind {x : EvalM σ α} {f : α → EvalM σ β} {Q : β → Machine σ → Prop} :
    (x >>= f).Ends m Q E ↔ x.Ends m (fun a m' => (f a).Ends m' Q E) E := by
  unfold Ends
  rw [EStateM.run_bind]
  cases x.run m <;> rfl

@[simp] theorem ends_modify (f : Machine σ → Machine σ) {Q : Unit → Machine σ → Prop} :
    (modify f : EvalM σ Unit).Ends m Q E ↔ Q () (f m) := Iff.rfl

@[simp] theorem ends_report (cause : RuntimeError) (span : Span) {Q : Unit → Machine σ → Prop} :
    (report cause span).Ends m Q E ↔ Q () (m.noted cause span) := Iff.rfl

theorem ends_nested (span : Span) {node : EvalM σ (Control Value)}
    {Q : Control Value → Machine σ → Prop} :
    (nested span node).Ends m Q E ↔
      if maxNesting ≤ m.depth then Q (.normal .none) (m.noted .tooDeep span)
      else node.Ends m.deeper (fun r m' => Q r m'.shallower) E := by
  have eq : (nested span node).Ends m Q E ↔
      (if maxNesting ≤ m.depth then report .tooDeep span >>= fun _ => pure (.normal .none)
        else do
          modify fun m => { m with depth := m.depth + 1 }
          let result ← node
          modify fun m => { m with depth := m.depth - 1 }
          pure result : EvalM σ (Control Value)).Ends m Q E := Iff.rfl
  rw [eq]
  split
  · rfl
  · simp only [ends_bind, ends_modify, ends_pure]
    rfl

theorem ends_inScope {node : EvalM σ α} :
    (inScope node).Ends m Q E ↔ node.Ends m.entered (fun a m' => Q a m'.left) E := by
  simp only [inScope, ends_bind, ends_modify, ends_pure]
  rfl

theorem ends_asValue {node : EvalM σ (Control Value)} {Q : Value → Machine σ → Prop} :
    (asValue node).Ends m Q E ↔ node.Ends m (fun r m' => Q r.value m') E := by
  simp only [asValue, ends_bind, ends_pure]

theorem ends_settle (result : Except OperationError Value) (span : Span)
    {Q : Value → Machine σ → Prop} :
    (settle result span).Ends m Q E ↔
      match result with
      | .ok value => Q value m
      | .error error => Q error.fallback.zero (m.noted (.operation error) span) := by
  cases result <;> rfl

theorem ends_settleTest (result : Except OperationError Bool) (span : Span)
    {Q : Value → Machine σ → Prop} :
    (settleTest result span).Ends m Q E ↔
      match result with
      | .ok b => Q (.bool b) m
      | .error error => Q (.bool false) (m.noted (.operation error) span) := by
  cases result <;> rfl

theorem ends_lookup (ident : Ident) {Q : Value → Machine σ → Prop} :
    (lookup ident).Ends m Q E ↔
      match m.scopes.find? ident.name with
      | some (entry, _) => Q entry.payload m
      | none => Q .none (m.noted (.identifierNotFound ident.name) ident.span) := by
  have eq : (lookup ident).Ends m Q E ↔
      (match m.scopes.find? ident.name with
        | some (entry, _) => pure entry.payload
        | none => report (.identifierNotFound ident.name) ident.span >>= fun _ => pure .none :
        EvalM σ Value).Ends m Q E := Iff.rfl
  rw [eq]
  split <;> rfl

theorem ends_declare (binding : Binding) (name : Ident) (declared : Ty) (value : Value)
    (span : Span) {Q : Value → Machine σ → Prop} :
    (declare binding name declared value span).Ends m Q E ↔
      if value.type = declared then
        Q value { m with scopes := m.scopes.insert name.name ⟨value, binding⟩ }
      else
        Q declared.zero
          { m.noted (.mismatchedTypes declared value.type) span with
            scopes := m.scopes.insert name.name ⟨declared.zero, binding⟩ } := by
  unfold declare
  split <;> rfl

theorem ends_assign (target : Ident) (value : Value) {Q : Unit → Machine σ → Prop} :
    (assign target value).Ends m Q E ↔
      match m.scopes.find? target.name with
      | none => Q () (m.noted (.identifierNotFound target.name) target.span)
      | some (entry, _) =>
        if entry.isConst then Q () (m.noted (.assignToConstant target.name) target.span)
        else if entry.payload.type ≠ value.type then
          Q () (m.noted (.mismatchedTypes entry.payload.type value.type) target.span)
        else Q () { m with scopes := m.scopes.set target.name value } := by
  have eq : (assign target value).Ends m Q E ↔
      (match m.scopes.find? target.name with
        | none => report (.identifierNotFound target.name) target.span
        | some (entry, _) =>
          if entry.isConst then report (.assignToConstant target.name) target.span
          else if entry.payload.type ≠ value.type then
            report (.mismatchedTypes entry.payload.type value.type) target.span
          else modify fun m => { m with scopes := m.scopes.set target.name value } :
        EvalM σ Unit).Ends m Q E := Iff.rfl
  rw [eq]
  split
  · rfl
  · split
    · rfl
    · split <;> rfl

theorem ends_throw {Q : α → Machine σ → Prop} :
    (throw .outOfRounds : EvalM σ α).Ends m Q E ↔ E m := Iff.rfl

end EvalM

theorem Block.eval_eq {σ : Type} [Sink σ] (rounds : Nat) (body : Block) :
    (body.eval rounds : EvalM σ _) =
      EvalM.inScope (Expr.evalStatements rounds body.statements) := by
  cases body
  rw [Block.eval]
  rfl

end ExprLang
