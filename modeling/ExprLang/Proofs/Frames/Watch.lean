import ExprLang.Proofs.Frames.Labels
import ExprLang.Proofs.ParallelEvaluation
import ExprLang.Session

set_option autoImplicit false

/-!
Evaluation under observation. The machine carries the labels of its entries along, and a record of
all moments at which a step has changed the scopes; the evaluator is run with steps that keep both
up to date. To be watched makes no difference: without the record, what is left is evaluation.
-/

namespace ExprLang

/-- The scopes at some time, with the labels of their entries. -/
structure Moment where
  labels : Scopes Label
  scopes : Scopes Value

/-- A sink together with a record, in which the latest moment comes first. -/
structure Watched (σ : Type) where
  sink : σ
  labels : Scopes Label
  moments : List Moment

instance {σ : Type} [Sink σ] : Sink (Watched σ) where
  write piece w := { w with sink := Sink.write piece w.sink }

namespace Machine

variable {σ : Type}

/-- Under observation from now on. -/
def watched (m : Machine σ) (labels : Scopes Label) : Machine (Watched σ) :=
  ⟨m.scopes, ⟨m.sink, labels, [⟨labels, m.scopes⟩]⟩, m.errors, m.depth⟩

/-- Without the record. -/
def unwatched (m : Machine (Watched σ)) : Machine σ :=
  ⟨m.scopes, m.sink.sink, m.errors, m.depth⟩

/-- With the labels brought up to date, and this moment in the record. -/
def observed (m : Machine (Watched σ)) (change : Scopes Label → Scopes Label) :
    Machine (Watched σ) :=
  let labels := change m.sink.labels
  { m with sink := { m.sink with labels, moments := ⟨labels, m.scopes⟩ :: m.sink.moments } }

end Machine

namespace EvalM

variable {σ α : Type}

/-- Takes a step, and then observes it. -/
def observing (step : EvalM (Watched σ) α) (change : α → Scopes Label → Scopes Label) :
    EvalM (Watched σ) α := do
  let result ← step
  modify (·.observed (change result))
  pure result

def watchScope (node : EvalM (Watched σ) α) : EvalM (Watched σ) α := do
  observing (modify fun m => { m with scopes := m.scopes.enter }) fun _ => Scopes.enter
  let result ← node
  observing (modify fun m => { m with scopes := m.scopes.exit }) fun _ => Scopes.exit
  pure result

/-- A declaration gives its entry a new label. -/
def watchDeclare (binding : Binding) (name : Ident) (declared : Ty) (value : Value) (span : Span) :
    EvalM (Watched σ) Value :=
  observing (declare binding name declared value span) fun kept labels =>
    labels.insert name.name ⟨⟨declared, kept⟩, binding⟩

/-- An assignment leaves all labels as they are. -/
def watchAssign (target : Ident) (value : Value) : EvalM (Watched σ) Unit :=
  observing (assign target value) fun _ labels => labels

/-- An entry is set aside together with its label. -/
def watchAside (name : String) :
    EvalM (Watched σ) (Option (Entry Value × Option (Entry Label))) := do
  let label := (← get).sink.labels.current.get? name
  let previous ← observing (setAside name) fun _ labels => labels.erase name
  pure (previous.map (·, label))

def watchRestore (names : List String) (aside : Scopes.Aside) : EvalM (Watched σ) Unit :=
  observing (modify fun m => { m with scopes := m.scopes.restore names aside.entries })
    fun _ labels => labels.restore names aside.labels

end EvalM

open EvalM

/-- The steps of evaluation under observation. -/
abbrev watching (σ : Type) : ScopeSteps (Watched σ) where
  Aside := Entry Value × Option (Entry Label)
  inScope := watchScope
  declare := watchDeclare
  assign := watchAssign
  setAside := watchAside
  restore := watchRestore

variable {σ : Type} [Sink σ]

/-- Evaluation with the steps that are observed. -/
abbrev Expr.watch (rounds : Nat) (e : Expr) : EvalM (Watched σ) (Control Value) :=
  @Expr.eval (Watched σ) _ (watching σ) rounds e

abbrev Block.watch (rounds : Nat) (b : Block) : EvalM (Watched σ) (Control Value) :=
  @Block.eval (Watched σ) _ (watching σ) rounds b

/-- Evaluates an expression under observation. -/
def Machine.watchExpr (rounds : Nat) (m : Machine (Watched σ)) (e : Expr) :
    Option (Control Value) × Machine (Watched σ) :=
  Machine.outcome (e.watch rounds) m

/-! ### To be watched makes no difference -/

namespace EvalM

variable {α β γ : Type}

/-- From a state and the same state without a record, both evaluations go the same way. -/
abbrev Erases (x : EvalM (Watched σ) α) (y : EvalM σ α) : Prop :=
  Parallel (fun m n => m.unwatched = n) x y

variable (σ) in
theorem follows_unwatched :
    Follows (fun (m : Machine (Watched σ)) (n : Machine σ) => m.unwatched = n) Eq where
  scopes same := by rw [← same]; rfl
  depth same := by rw [← same]; rfl
  rescoped same _ := by rw [← same]; rfl
  moved same _ := by rw [← same]; rfl
  noted same _ _ _ place := by rw [← same, place]; rfl
  wrote same _ := by rw [← same]; rfl

omit [Sink σ] in
theorem erases_observing {x : EvalM (Watched σ) α} {y : EvalM σ α} (h : Erases x y)
    (change : α → Scopes Label → Scopes Label) : Erases (observing x change) y := by
  have silent (a : α) :
      Erases (do modify (·.observed (change a)); pure a : EvalM (Watched σ) α) (pure a) :=
    fun m n same => .ok same
  have both := h.bind silent
  rwa [bind_pure] at both

theorem erases_watchScope {x : EvalM (Watched σ) α} {y : EvalM σ α} (h : Erases x y) :
    Erases (watchScope x) (inScope y) :=
  (erases_observing (parallel_rescope (follows_unwatched σ) Scopes.enter) _).bind fun _ =>
    h.bind fun _ =>
      (erases_observing (parallel_rescope (follows_unwatched σ) Scopes.exit) _).bind fun _ =>
        parallel_pure _

omit [Sink σ] in
theorem erases_watchAside (name : String) :
    Erases (Option.map Prod.fst <$> (watchAside name : EvalM (Watched σ) _)) (setAside name) := by
  rintro m _ rfl
  have plain : SameEnd (fun m n => m.unwatched = n)
      (.ok (m.scopes.current.get? name) ((m.erased name).observed (·.erase name)))
      ((setAside name).run m.unwatched) := .ok rfl
  have fst : ((m.scopes.current.get? name).map (·, m.sink.labels.current.get? name)).map Prod.fst =
      m.scopes.current.get? name := by
    rw [Option.map_map]
    exact Option.map_id' ..
  rw [← fst] at plain
  exact plain

theorem erases_watchRestore (names : List String) (aside : Scopes.Aside) :
    Erases (watchRestore names aside : EvalM (Watched σ) _)
      (modify fun m => { m with scopes := m.scopes.restore names aside.entries }) :=
  erases_observing (parallel_rescope (follows_unwatched σ) (·.restore names aside.entries)) _

variable (σ) in
/-- The steps that are observed do what the plain ones do. -/
theorem inStep_watching :
    InStep (fun m n => m.unwatched = n) Eq (watching σ) (.plain σ) Prod.fst where
  inScope h := erases_watchScope h
  declare binding _ _ name declared value _ _ places :=
    erases_observing (parallel_declare (follows_unwatched σ) binding name declared value places) _
  assign name places value :=
    erases_observing (parallel_assign (follows_unwatched σ) name places value) _
  setAside name := erases_watchAside name
  restore names aside := erases_watchRestore names aside

end EvalM

theorem Expr.erases_watch (rounds : Nat) (e : Expr) :
    Erases (e.watch rounds : EvalM (Watched σ) _) (e.eval rounds) := by
  have erases := Expr.parallel_eval (follows_unwatched σ) (inStep_watching σ) (f := id)
    (fun _ => rfl) rounds e
  rwa [Expr.respan_id] at erases

theorem Block.erases_watch (rounds : Nat) (b : Block) :
    Erases (b.watch rounds : EvalM (Watched σ) _) (b.eval rounds) := by
  have erases := Block.parallel_eval (follows_unwatched σ) (inStep_watching σ) (f := id)
    (fun _ => rfl) rounds b
  rwa [Block.respan_id] at erases

/-- A run under observation is the run itself, with a record of it. -/
theorem Machine.watchExpr_unwatched (rounds : Nat) (m : Machine (Watched σ)) (e : Expr) :
    m.unwatched.evalExpr rounds e =
      ((m.watchExpr rounds e).1, (m.watchExpr rounds e).2.unwatched) := by
  have same := e.erases_watch rounds m m.unwatched rfl
  unfold Machine.evalExpr Machine.watchExpr Machine.outcome
  generalize (e.watch rounds).run m = left at same
  generalize (e.eval rounds).run m.unwatched = right at same
  cases same with
  | ok related => rw [related]
  | out related => rw [related]

end ExprLang
