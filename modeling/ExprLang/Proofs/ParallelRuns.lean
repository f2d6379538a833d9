import ExprLang.Proofs.EvalRun

set_option autoImplicit false

/-!
Two evaluations side by side. They may print to different sinks and lay errors to different places;
what counts is that they go the same way, from related states to related states. Each rule says of
one step of evaluation that both sides can take it together.
-/

namespace ExprLang.EvalM

variable {σ τ α β : Type}

/-- Both evaluations end with the same result, or both run out of rounds; the states are related. -/
inductive SameEnd (R : Machine σ → Machine τ → Prop) :
    EStateM.Result OutOfRounds (Machine σ) α → EStateM.Result OutOfRounds (Machine τ) α →
      Prop where
  | ok {a : α} {m : Machine σ} {n : Machine τ} (related : R m n) : SameEnd R (.ok a m) (.ok a n)
  | out {m : Machine σ} {n : Machine τ} (related : R m n) :
    SameEnd R (.error .outOfRounds m) (.error .outOfRounds n)

/-- From related states, both evaluations go the same way. -/
def Parallel (R : Machine σ → Machine τ → Prop) (x : EvalM σ α) (y : EvalM τ α) : Prop :=
  ∀ m n, R m n → SameEnd R (x.run m) (y.run n)

/-- What a relation of states has to keep: evaluation sees the scopes and the nesting, so they are
the same; what it changes, it changes on both sides. Errors are laid to places that `S` relates. -/
structure Follows [Sink σ] [Sink τ] (R : Machine σ → Machine τ → Prop)
    (S : Span → Span → Prop) : Prop where
  scopes : ∀ {m n}, R m n → n.scopes = m.scopes
  depth : ∀ {m n}, R m n → n.depth = m.depth
  rescoped : ∀ {m n}, R m n → ∀ scopes, R { m with scopes } { n with scopes }
  moved : ∀ {m n}, R m n → ∀ depth, R { m with depth } { n with depth }
  noted : ∀ {m n}, R m n → ∀ cause {s t}, S s t → R (m.noted cause s) (n.noted cause t)
  wrote : ∀ {m n}, R m n → ∀ piece,
    R { m with sink := Sink.write piece m.sink } { n with sink := Sink.write piece n.sink }

variable {R : Machine σ → Machine τ → Prop}

theorem parallel_pure (a : α) : Parallel R (pure a) (pure a) :=
  fun _ _ related => .ok related

theorem Parallel.bind {x : EvalM σ α} {y : EvalM τ α} {f : α → EvalM σ β} {g : α → EvalM τ β}
    (first : Parallel R x y) (rest : ∀ a, Parallel R (f a) (g a)) :
    Parallel R (x >>= f) (y >>= g) := by
  intro m n related
  have before := first m n related
  rw [EStateM.run_bind, EStateM.run_bind]
  generalize x.run m = left at before
  generalize y.run n = right at before
  cases before with
  | ok related => exact rest _ _ _ related
  | out related => exact .out related

/-- The left side may have a result with more in it. -/
theorem Parallel.bind_map {γ : Type} {f : α → β} {x : EvalM σ α} {y : EvalM τ β}
    {g : α → EvalM σ γ} {k : β → EvalM τ γ} (first : Parallel R (f <$> x) y)
    (rest : ∀ a, Parallel R (g a) (k (f a))) : Parallel R (x >>= g) (y >>= k) := by
  intro m n related
  have before := first m n related
  rw [← bind_pure_comp, EStateM.run_bind] at before
  rw [EStateM.run_bind, EStateM.run_bind]
  generalize x.run m = left at before
  generalize y.run n = right at before
  cases left with
  | ok a m' =>
    cases before with
    | ok related => exact rest a _ _ related
  | error e m' =>
    cases before with
    | out related => exact .out related

/-- Both sides look at their state, and go on with what they see there. -/
theorem parallel_get {f : Machine σ → EvalM σ α} {g : Machine τ → EvalM τ α}
    (rest : ∀ m n, R m n → SameEnd R ((f m).run m) ((g n).run n)) :
    Parallel R (get >>= f) (get >>= g) :=
  rest

theorem parallel_modify {f : Machine σ → Machine σ} {g : Machine τ → Machine τ}
    (keeps : ∀ m n, R m n → R (f m) (g n)) : Parallel R (modify f) (modify g) :=
  fun m n related => .ok (keeps m n related)

theorem parallel_out : Parallel R (throw .outOfRounds : EvalM σ α) (throw .outOfRounds) :=
  fun _ _ related => .out related

theorem parallel_asValue {x : EvalM σ (Control Value)} {y : EvalM τ (Control Value)}
    (h : Parallel R x y) : Parallel R (asValue x) (asValue y) :=
  h.bind fun result => parallel_pure result.value

theorem parallel_untilExit {x : EvalM σ (Control Value)} {y : EvalM τ (Control Value)}
    (h : Parallel R x y) (rounds : Nat) : Parallel R (untilExit x rounds) (untilExit y rounds) := by
  induction rounds with
  | zero => exact parallel_out
  | succ rounds ih =>
    refine h.bind fun result => ?_
    split
    · exact parallel_pure _
    · exact ih

theorem parallel_forM {f : Value → EvalM σ PUnit} {g : Value → EvalM τ PUnit}
    (each : ∀ v, Parallel R (f v) (g v)) (values : List Value) :
    Parallel R (values.forM f) (values.forM g) := by
  induction values with
  | nil => exact parallel_pure _
  | cons v values ih => exact (each v).bind fun _ => ih

/-! ### Steps -/

variable [Sink σ] [Sink τ] {S : Span → Span → Prop} (follows : Follows R S)

include follows

theorem parallel_report (cause : RuntimeError) {s t : Span} (places : S s t) :
    Parallel R (report cause s) (report cause t) :=
  parallel_modify fun _ _ related => follows.noted related cause places

/-- Both sides note the same trouble, and go on with what stands in. -/
theorem parallel_reported (cause : RuntimeError) {s t : Span} (places : S s t) (a : α) :
    Parallel R (do report cause s; pure a) (do report cause t; pure a) :=
  (parallel_report follows cause places).bind fun _ => parallel_pure a

theorem parallel_write (piece : String) : Parallel R (write piece) (write piece) :=
  parallel_modify fun _ _ related => follows.wrote related piece

/-- A change of the scopes. -/
theorem parallel_rescope (f : Scopes Value → Scopes Value) :
    Parallel R (modify fun m => { m with scopes := f m.scopes })
      (modify fun n => { n with scopes := f n.scopes }) := by
  refine parallel_modify fun m n related => ?_
  rw [follows.scopes related]
  exact follows.rescoped related _

theorem parallel_settle (result : Except OperationError Value) {s t : Span} (places : S s t) :
    Parallel R (settle result s) (settle result t) := by
  cases result with
  | ok value => exact parallel_pure value
  | error error => exact parallel_reported follows _ places _

theorem parallel_settleTest (result : Except OperationError Bool) {s t : Span} (places : S s t) :
    Parallel R (settleTest result s) (settleTest result t) := by
  cases result with
  | ok b => exact parallel_pure _
  | error error => exact parallel_reported follows _ places _

theorem parallel_nested {x : EvalM σ (Control Value)} {y : EvalM τ (Control Value)}
    (h : Parallel R x y) {s t : Span} (places : S s t) : Parallel R (nested s x) (nested t y) := by
  refine parallel_get fun m n related => ?_
  rw [follows.depth related]
  split
  · exact parallel_reported follows _ places _ m n related
  · refine (parallel_modify fun m n related => ?_).bind (fun _ => h.bind fun result =>
      (parallel_modify fun m n related => ?_).bind fun _ => parallel_pure _) m n related
    · rw [follows.depth related]
      exact follows.moved related _
    · rw [follows.depth related]
      exact follows.moved related _

theorem parallel_inScope {x : EvalM σ α} {y : EvalM τ α} (h : Parallel R x y) :
    Parallel R (inScope x) (inScope y) :=
  (parallel_rescope follows Scopes.enter).bind fun _ => h.bind fun _ =>
    (parallel_rescope follows Scopes.exit).bind fun _ => parallel_pure _

theorem parallel_lookup {i j : Ident} (name : j.name = i.name) (places : S i.span j.span) :
    Parallel R (lookup i) (lookup j) := by
  refine parallel_get fun m n related => ?_
  rw [follows.scopes related, name]
  split
  · exact .ok related
  · exact parallel_reported follows _ places _ m n related

theorem parallel_declare (binding : Binding) {i j : Ident} (name : j.name = i.name)
    (declared : Ty) (value : Value) {s t : Span} (places : S s t) :
    Parallel R (declare binding i declared value s) (declare binding j declared value t) := by
  unfold declare
  rw [name]
  have bound (kept : Value) := parallel_rescope follows (·.insert i.name ⟨kept, binding⟩)
  split
  · exact (bound value).bind fun _ => parallel_pure _
  · exact (parallel_report follows _ places).bind fun _ =>
      (bound declared.zero).bind fun _ => parallel_pure _

theorem parallel_assign {i j : Ident} (name : j.name = i.name) (places : S i.span j.span)
    (value : Value) : Parallel R (assign i value) (assign j value) := by
  refine parallel_get fun m n related => ?_
  rw [follows.scopes related, name]
  split
  · exact parallel_report follows _ places m n related
  · split
    · exact parallel_report follows _ places m n related
    · split
      · exact parallel_report follows _ places m n related
      · exact parallel_rescope follows (·.set i.name value) m n related

theorem parallel_setAside (name : String) : Parallel R (setAside name) (setAside name) := by
  intro m n related
  have same := follows.scopes related
  have after := follows.rescoped related (m.scopes.erase name)
  have right : (setAside name : EvalM τ _).run n =
      .ok (m.scopes.current.get? name) { n with scopes := m.scopes.erase name } := by
    rw [← same]
    rfl
  rw [right]
  exact .ok after

theorem parallel_binary (op : BinaryOp) (lhs rhs : Value) {s t : Span} (places : S s t) :
    Parallel R (op.eval lhs rhs s) (op.eval lhs rhs t) := by
  cases op with
  | add | subtract | multiply | divide | modulo | index => exact parallel_settle follows _ places
  | equal => exact parallel_settleTest follows (.ok (lhs.equal rhs)) places
  | and | or | greater | less | greaterEqual | lessEqual =>
    exact parallel_settleTest follows _ places

theorem parallel_unary (op : UnaryOp) (operand : Value) {s t : Span} (places : S s t) :
    Parallel R (op.eval operand s) (op.eval operand t) := by
  cases op <;> exact parallel_settle follows _ places

/-- A choice by a value, which may not be a truth value. -/
theorem parallel_choice (value : Value) {x y : EvalM σ (Control Value)}
    {x' y' : EvalM τ (Control Value)} (yes : Parallel R x x') (no : Parallel R y y') {s t : Span}
    (places : S s t) :
    Parallel R
      (match value with
        | .bool true => x
        | .bool false => y
        | other => do
          report (.nonBoolCondition other.type) s
          pure (.normal .none))
      (match value with
        | .bool true => x'
        | .bool false => y'
        | other => do
          report (.nonBoolCondition other.type) t
          pure (.normal .none)) := by
  split
  · exact yes
  · exact no
  · exact parallel_reported follows _ places _

theorem parallel_writeLine (text : String) : Parallel R (writeLine text) (writeLine text) :=
  (parallel_write follows text).bind fun _ => parallel_write follows "\n"

theorem parallel_call (f : Builtin) (arguments : List Value) :
    Parallel R (f.call arguments) (f.call arguments) := by
  cases f with
  | print =>
    exact (parallel_forM (fun v => parallel_write follows v.render) arguments).bind fun _ =>
      parallel_pure _
  | println =>
    have lines := (parallel_forM (fun v => parallel_writeLine follows v.render) arguments).bind
      fun _ => parallel_pure (Except.ok Value.none : Except RuntimeError Value)
    rw [Builtin.call, Builtin.call]
    split
    · exact (parallel_writeLine follows "").bind fun _ => lines
    · exact lines
  | len =>
    rcases arguments with _ | ⟨v, _ | ⟨w, rest⟩⟩
    · exact parallel_pure _
    · rw [Builtin.call, Builtin.call]
      cases v.len <;> exact parallel_pure _
    · exact parallel_pure _

omit follows in
/-- Two kinds of steps that change the scopes in the same way. What the one sets aside has in it
what the other does. -/
structure InStep (R : Machine σ → Machine τ → Prop) (S : Span → Span → Prop)
    (left : ScopeSteps σ) (right : ScopeSteps τ) (entry : left.Aside → right.Aside) : Prop where
  inScope : ∀ {α : Type} {x : EvalM σ α} {y : EvalM τ α}, Parallel R x y →
    Parallel R (left.inScope x) (right.inScope y)
  declare : ∀ (binding : Binding) {i j : Ident}, j.name = i.name → ∀ (declared : Ty)
    (value : Value) {s t : Span}, S s t →
    Parallel R (left.declare binding i declared value s) (right.declare binding j declared value t)
  assign : ∀ {i j : Ident}, j.name = i.name → S i.span j.span → ∀ value : Value,
    Parallel R (left.assign i value) (right.assign j value)
  setAside : ∀ name : String,
    Parallel R (Option.map entry <$> left.setAside name) (right.setAside name)
  restore : ∀ (names : List String) (aside : List (String × left.Aside)),
    Parallel R (left.restore names aside) (right.restore names (aside.map (Prod.map id entry)))

/-- The plain steps on both sides. -/
theorem inStep_plain : InStep R S (.plain σ) (.plain τ) id where
  inScope h := parallel_inScope follows h
  declare binding _ _ name declared value _ _ places :=
    parallel_declare follows binding name declared value places
  assign name places value := parallel_assign follows name places value
  setAside name := by
    rw [Option.map_id, id_map]
    exact parallel_setAside follows name
  restore names aside := by
    rw [Prod.map_id, List.map_id]
    exact parallel_rescope follows (·.restore names aside)

end ExprLang.EvalM
