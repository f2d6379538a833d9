import ExprLang.Proofs.Frames.Watch
import ExprLang.Proofs.ScopeAgreement
import ExprLang.Proofs.WellTyped

set_option autoImplicit false

/-!
What evaluation keeps. At every moment of a run all entries fit their labels, and at its end the
labels of the outer frames are what they were; those of the current frame as well, after a block.
-/

namespace ExprLang

variable {σ : Type}

/-- The latest moment of the record is the present one, and at all of them the entries fit their
labels. -/
structure Machine.Faithful (m : Machine (Watched σ)) : Prop where
  present : m.sink.moments.head? = some ⟨m.sink.labels, m.scopes⟩
  always : ∀ moment ∈ m.sink.moments, moment.labels.Tracks moment.scopes

namespace Machine.Faithful

variable {m : Machine (Watched σ)}

theorem tracks (h : m.Faithful) : m.sink.labels.Tracks m.scopes :=
  h.always _ (List.mem_of_mem_head? h.present)

/-- A step that is observed may change the scopes, as long as the new labels fit. -/
theorem observed (h : m.Faithful) {scopes : Scopes Value} {errors : Array (Located RuntimeError)}
    {change : Scopes Label → Scopes Label} (tracks : (change m.sink.labels).Tracks scopes) :
    (Machine.observed ⟨scopes, m.sink, errors, m.depth⟩ change).Faithful := by
  refine ⟨rfl, ?_⟩
  intro moment inside
  rcases List.mem_cons.1 inside with rfl | before
  · exact tracks
  · exact h.always moment before

end Machine.Faithful

namespace EvalM

variable {α β : Type}

/-- Every moment of the run is faithful; when it ends, `P` relates the labels before, the result
and the labels after. -/
def Guards (x : EvalM (Watched σ) α) (P : Scopes Label → α → Scopes Label → Prop) : Prop :=
  ∀ m, m.Faithful →
    x.Ends m (fun a m' => m'.Faithful ∧ P m.sink.labels a m'.sink.labels) Machine.Faithful

/-- All labels are kept. -/
abbrev Still (x : EvalM (Watched σ) α) : Prop :=
  Guards x fun s _ t => t = s

/-- The labels of the outer frames are kept, and the result has `V`. -/
abbrev Yields (x : EvalM (Watched σ) α) (V : α → Prop) : Prop :=
  Guards x fun s a t => t.outer = s.outer ∧ V a

/-- The labels of the outer frames are kept. -/
abbrev Steady (x : EvalM (Watched σ) α) : Prop :=
  Yields x fun _ => True

theorem Still.steady {x : EvalM (Watched σ) α} (h : Still x) : Steady x :=
  fun m faithful => (h m faithful).mono
    (fun _ _ ⟨faithful, same⟩ => ⟨faithful, congrArg Scopes.outer same, trivial⟩) fun _ out => out

theorem Yields.bind {x : EvalM (Watched σ) α} {f : α → EvalM (Watched σ) β} {V : α → Prop}
    {W : β → Prop} (first : Yields x V) (rest : ∀ a, V a → Yields (f a) W) :
    Yields (x >>= f) W := by
  intro m faithful
  rw [ends_bind]
  refine (first m faithful).mono ?_ fun _ out => out
  intro a m' ⟨faithful', outer, result⟩
  refine (rest a result m' faithful').mono ?_ fun _ out => out
  intro b m'' ⟨faithful'', outer', result'⟩
  exact ⟨faithful'', outer'.trans outer, result'⟩

theorem Steady.bind {x : EvalM (Watched σ) α} {f : α → EvalM (Watched σ) β} {W : β → Prop}
    (first : Steady x) (rest : ∀ a, Yields (f a) W) : Yields (x >>= f) W :=
  Yields.bind first fun a _ => rest a

theorem yields_pure {V : α → Prop} {a : α} (h : V a) :
    Yields (pure a : EvalM (Watched σ) α) V :=
  fun _ faithful => ⟨faithful, rfl, h⟩

theorem steady_pure (a : α) : Steady (pure a : EvalM (Watched σ) α) :=
  yields_pure trivial

theorem still_report (cause : RuntimeError) (span : Span) :
    Still (report cause span : EvalM (Watched σ) Unit) :=
  fun _ faithful => ⟨⟨faithful.present, faithful.always⟩, rfl⟩

/-- Goes on with a value that stands in. -/
theorem steady_reported (cause : RuntimeError) (span : Span) (a : α) :
    Steady (do report cause span; pure a : EvalM (Watched σ) α) :=
  (still_report cause span).steady.bind fun _ => steady_pure a

theorem guards_nested {x : EvalM (Watched σ) (Control Value)}
    {P : Scopes Label → Control Value → Scopes Label → Prop} (h : Guards x P)
    (skipped : ∀ s, P s (.normal .none) s) (span : Span) : Guards (nested span x) P := by
  intro m faithful
  rw [ends_nested]
  split
  · exact ⟨⟨faithful.present, faithful.always⟩, skipped _⟩
  · refine (h m.deeper ⟨faithful.present, faithful.always⟩).mono ?_ fun _ out => out
    intro result m' ⟨faithful', after⟩
    exact ⟨⟨faithful'.present, faithful'.always⟩, after⟩

theorem steady_nested {x : EvalM (Watched σ) (Control Value)} (h : Steady x) (span : Span) :
    Steady (nested span x) :=
  guards_nested h (fun _ => ⟨rfl, trivial⟩) span

theorem steady_asValue {x : EvalM (Watched σ) (Control Value)} (h : Steady x) :
    Steady (asValue x) :=
  h.bind fun _ => steady_pure _

theorem steady_untilExit {x : EvalM (Watched σ) (Control Value)} (h : Steady x) (rounds : Nat) :
    Steady (untilExit x rounds) := by
  induction rounds with
  | zero => exact fun _ faithful => faithful
  | succ rounds ih =>
    refine h.bind fun result => ?_
    split
    · exact steady_pure _
    · exact ih

theorem steady_settle (result : Except OperationError Value) (span : Span) :
    Steady (settle result span : EvalM (Watched σ) Value) := by
  cases result with
  | ok value => exact steady_pure value
  | error error => exact steady_reported _ _ _

theorem steady_settleTest (result : Except OperationError Bool) (span : Span) :
    Steady (settleTest result span : EvalM (Watched σ) Value) := by
  cases result with
  | ok b => exact steady_pure _
  | error error => exact steady_reported _ _ _

theorem steady_binary (op : BinaryOp) (lhs rhs : Value) (span : Span) :
    Steady (op.eval lhs rhs span : EvalM (Watched σ) Value) := by
  cases op with
  | add | subtract | multiply | divide | modulo | index => exact steady_settle _ span
  | equal => exact steady_settleTest (.ok (lhs.equal rhs)) span
  | and | or | greater | less | greaterEqual | lessEqual => exact steady_settleTest _ span

theorem steady_unary (op : UnaryOp) (operand : Value) (span : Span) :
    Steady (op.eval operand span : EvalM (Watched σ) Value) := by
  cases op <;> exact steady_settle _ span

/-- A choice by a value, which may not be a truth value. -/
theorem steady_choice (value : Value) (span : Span) {x y : EvalM (Watched σ) (Control Value)}
    (yes : Steady x) (no : Steady y) :
    Steady (match value with
      | .bool true => x
      | .bool false => y
      | other => do
        report (.nonBoolCondition other.type) span
        pure (.normal .none)) := by
  split
  · exact yes
  · exact no
  · exact steady_reported _ _ _

theorem steady_lookup (ident : Ident) : Steady (lookup ident : EvalM (Watched σ) Value) := by
  intro m faithful
  rw [ends_lookup]
  split
  · exact ⟨faithful, rfl, trivial⟩
  · exact (still_report _ _).steady m faithful

theorem steady_forM {f : Value → EvalM (Watched σ) PUnit} (each : ∀ v, Steady (f v))
    (values : List Value) : Steady (values.forM f) := by
  induction values with
  | nil => exact steady_pure _
  | cons v values ih => exact (each v).bind fun _ => ih

theorem steady_write [Sink σ] (piece : String) :
    Steady (write piece : EvalM (Watched σ) Unit) :=
  fun _ faithful => ⟨⟨faithful.present, faithful.always⟩, rfl, trivial⟩

theorem steady_writeLine [Sink σ] (text : String) :
    Steady (writeLine text : EvalM (Watched σ) Unit) :=
  (steady_write text).bind fun _ => steady_write "\n"

theorem steady_call [Sink σ] (f : Builtin) (arguments : List Value) :
    Steady (f.call arguments : EvalM (Watched σ) _) := by
  cases f with
  | print =>
    exact (steady_forM (fun v => steady_write v.render) arguments).bind fun _ => steady_pure _
  | println =>
    have lines := (steady_forM (fun v => steady_writeLine (σ := σ) v.render) arguments).bind
      fun _ => steady_pure (Except.ok Value.none : Except RuntimeError Value)
    rw [Builtin.call]
    split
    · exact (steady_writeLine "").bind fun _ => lines
    · exact lines
  | len =>
    rcases arguments with _ | ⟨v, _ | ⟨w, rest⟩⟩
    · exact steady_pure _
    · rw [Builtin.call]
      cases v.len <;> exact steady_pure _
    · exact steady_pure _

/-! ### Steps that are observed -/

theorem ends_observing {x : EvalM (Watched σ) α} {change : α → Scopes Label → Scopes Label}
    {m : Machine (Watched σ)} {Q : α → Machine (Watched σ) → Prop}
    {E : Machine (Watched σ) → Prop} :
    (observing x change).Ends m Q E ↔ x.Ends m (fun a m' => Q a (m'.observed (change a))) E := by
  simp only [observing, ends_bind, ends_modify, ends_pure]

/-- On leaving a frame, the labels are again those from before it was entered. -/
theorem still_watchScope {x : EvalM (Watched σ) α} (h : Steady x) : Still (watchScope x) := by
  intro m faithful
  have entered : (m.entered.observed Scopes.enter).Faithful :=
    faithful.observed faithful.tracks.enter
  rw [watchScope, ends_bind, ends_observing, ends_modify, ends_bind]
  refine (h _ entered).mono ?_ fun _ out => out
  intro a m' ⟨faithful', outer, _⟩
  rw [ends_bind, ends_observing, ends_modify, ends_pure]
  refine ⟨faithful'.observed faithful'.tracks.exit, ?_⟩
  -- The body has kept its outer labels, and these are all there were.
  have left : m'.sink.labels.exit = m.sink.labels := by
    rw [Scopes.exit, outer]
    rfl
  exact left

/-- A declared entry fits its label, also where the zero of the type stands in. -/
theorem steady_watchDeclare (binding : Binding) (name : Ident) {declared : Ty}
    (wellFormed : declared.WellFormed) (value : Value) (span : Span) :
    Steady (watchDeclare binding name declared value span : EvalM (Watched σ) Value) := by
  intro m faithful
  rw [watchDeclare, ends_observing, ends_declare]
  split
  next type =>
    have fits : Entry.Fits ⟨⟨declared, value⟩, binding⟩ ⟨value, binding⟩ :=
      ⟨rfl, type, fun _ => rfl⟩
    exact ⟨faithful.observed (faithful.tracks.insert _ fits), rfl, trivial⟩
  next =>
    have fits : Entry.Fits ⟨⟨declared, declared.zero⟩, binding⟩ ⟨declared.zero, binding⟩ :=
      ⟨rfl, (Ty.zero_hasType wellFormed).type, fun _ => rfl⟩
    exact ⟨faithful.observed (faithful.tracks.insert _ fits), rfl, trivial⟩

/-- What an assignment lets through is a variable that keeps its type. -/
theorem steady_watchAssign (target : Ident) (value : Value) :
    Steady (watchAssign target value : EvalM (Watched σ) Unit) := by
  intro m faithful
  rw [watchAssign, ends_observing, ends_assign]
  have refused (cause : RuntimeError) :
      ((m.noted cause target.span).observed fun labels => labels).Faithful :=
    faithful.observed faithful.tracks
  split
  next => exact ⟨refused _, rfl, trivial⟩
  next entry frame found =>
    split
    next => exact ⟨refused _, rfl, trivial⟩
    next writable =>
      split
      next => exact ⟨refused _, rfl, trivial⟩
      next type =>
        have tracks := faithful.tracks.set found (eq_false_of_ne_true writable)
          (not_not.1 type)
        exact ⟨faithful.observed tracks, rfl, trivial⟩

/-- What is set aside has a label that it fits. -/
theorem yields_watchAside (name : String) :
    Yields (watchAside name : EvalM (Watched σ) _) fun previous =>
      ∀ entry ∈ previous, Scopes.Aside.EntryFits entry := by
  intro m faithful
  have fits := faithful.tracks.current name
  have erased : ((m.erased name).observed (·.erase name)).Faithful :=
    faithful.observed (faithful.tracks.erase name)
  refine ⟨erased, rfl, ?_⟩
  intro entry found
  obtain ⟨e, here, rfl⟩ := Option.map_eq_some_iff.1 found
  rw [here] at fits
  generalize m.sink.labels.current.get? name = label at fits
  cases fits with
  | some fits => exact ⟨_, rfl, fits⟩

theorem steady_watchRestore (names : List String) {aside : Scopes.Aside} (fits : aside.Fits) :
    Steady (watchRestore names aside : EvalM (Watched σ) Unit) := by
  intro m faithful
  rw [watchRestore, ends_observing, ends_modify]
  refine ⟨faithful.observed (faithful.tracks.restore names fits), ?_, trivial⟩
  exact Scopes.outer_restore ..

/-- Steps that keep the record faithful, and the labels of the outer frames. What is set aside can
be bound again, since it fits. -/
structure Guarding (steps : ScopeSteps (Watched σ)) (fits : steps.Aside → Prop) : Prop where
  inScope : ∀ {α : Type} {x : EvalM (Watched σ) α}, Steady x → Still (steps.inScope x)
  declare : ∀ (binding : Binding) (name : Ident) {declared : Ty}, declared.WellFormed →
    ∀ (value : Value) (span : Span), Steady (steps.declare binding name declared value span)
  assign : ∀ (target : Ident) (value : Value), Steady (steps.assign target value)
  setAside : ∀ name : String,
    Yields (steps.setAside name) fun previous => ∀ entry ∈ previous, fits entry
  restore : ∀ (names : List String) {aside : List (String × steps.Aside)},
    (∀ entry ∈ aside, fits entry.2) → Steady (steps.restore names aside)

variable (σ) in
theorem guarding_watching : Guarding (watching σ) Scopes.Aside.EntryFits where
  inScope := still_watchScope
  declare binding name _ wellFormed value span :=
    steady_watchDeclare binding name wellFormed value span
  assign := steady_watchAssign
  setAside := yields_watchAside
  restore names _ fits := steady_watchRestore names fits

end EvalM

open EvalM

section Walk

variable [Sink σ] {steps : ScopeSteps (Watched σ)} {fits : steps.Aside → Prop}
  (guarding : Guarding steps fits) (rounds : Nat)

include guarding

set_option linter.unusedSectionVars false in
mutual

theorem Expr.steady_eval (e : Expr) : Steady (e.eval rounds : EvalM (Watched σ) _) := by
  match e with
  | .literal value _ =>
    rw [Expr.eval]
    apply steady_nested
    exact steady_pure _
  | .list items _ =>
    rw [Expr.eval]
    apply steady_nested
    exact (Expr.steady_evalAll items).bind fun values => steady_pure _
  | .map entries _ =>
    rw [Expr.eval]
    apply steady_nested
    exact (Expr.steady_evalEntries entries).bind fun pairs => steady_pure _
  | .name ident _ =>
    rw [Expr.eval]
    apply steady_nested
    exact (steady_lookup ident).bind fun _ => steady_pure _
  | .unary op operand _ =>
    rw [Expr.eval]
    apply steady_nested
    refine (steady_asValue operand.steady_eval).bind fun value => ?_
    exact (steady_unary op value _).bind fun _ => steady_pure _
  | .binary op lhs rhs _ =>
    rw [Expr.eval]
    apply steady_nested
    refine (steady_asValue lhs.steady_eval).bind fun left => ?_
    refine (steady_asValue rhs.steady_eval).bind fun right => ?_
    exact (steady_binary op left right _).bind fun _ => steady_pure _
  | .declare d _ =>
    rw [Expr.eval]
    apply steady_nested
    exact d.steady_eval.bind fun _ => steady_pure _
  | .assign target value _ =>
    rw [Expr.eval]
    apply steady_nested
    refine (steady_asValue value.steady_eval).bind fun v => ?_
    exact (guarding.assign target v).bind fun _ => steady_pure _
  | .block body _ =>
    rw [Expr.eval]
    apply steady_nested
    exact body.still_eval.steady
  | .cond branches _ =>
    rw [Expr.eval]
    apply steady_nested
    exact branches.steady_eval
  | .loop vars body _ =>
    rw [Expr.eval]
    apply steady_nested
    -- Nobody can write to what is set aside, so it still fits when it is bound again.
    refine (Declaration.yields_evalVariables [] vars).bind fun aside kept => ?_
    refine (steady_untilExit body.still_eval.steady rounds).bind fun value => ?_
    exact (guarding.restore _ kept).bind fun _ => steady_pure _
  | .exit kind none _ =>
    rw [Expr.eval]
    apply steady_nested
    exact steady_pure _
  | .exit kind (some value) _ =>
    rw [Expr.eval]
    apply steady_nested
    exact (steady_asValue value.steady_eval).bind fun _ => steady_pure _
  | .call callee arguments _ =>
    rw [Expr.eval]
    apply steady_nested
    refine (Expr.steady_evalAll arguments).bind fun values => ?_
    split
    · exact steady_reported _ _ _
    · refine (steady_call _ values).bind fun result => ?_
      cases result with
      | ok value => exact steady_pure _
      | error cause => exact steady_reported _ _ _

theorem Expr.steady_evalAll (es : List Expr) :
    Steady (Expr.evalAll rounds es : EvalM (Watched σ) _) := by
  match es with
  | [] => exact steady_pure []
  | e :: rest =>
    rw [Expr.evalAll]
    refine (steady_asValue e.steady_eval).bind fun value => ?_
    exact (Expr.steady_evalAll rest).bind fun _ => steady_pure _

theorem Expr.steady_evalEntries (es : List (Expr × Expr)) :
    Steady (Expr.evalEntries rounds es : EvalM (Watched σ) _) := by
  match es with
  | [] => exact steady_pure []
  | (key, value) :: rest =>
    rw [Expr.evalEntries]
    refine (steady_asValue key.steady_eval).bind fun k => ?_
    refine (steady_asValue value.steady_eval).bind fun v => ?_
    exact (Expr.steady_evalEntries rest).bind fun _ => steady_pure _

theorem Declaration.steady_eval (d : Declaration) :
    Steady (d.eval rounds : EvalM (Watched σ) _) := by
  match d with
  | .mk binding name type value _ =>
    rw [Declaration.eval]
    refine (steady_asValue value.steady_eval).bind fun v => ?_
    exact guarding.declare binding name type.type_wellFormed v _

theorem Declaration.yields_evalVariables (earlier : List String) (ds : List Declaration) :
    Yields (Declaration.evalVariables rounds earlier ds : EvalM (Watched σ) _)
      (fun aside => ∀ entry ∈ aside, fits entry.2) := by
  match ds with
  | [] => exact yields_pure (by rintro _ ⟨⟩)
  | d :: rest =>
    rw [Declaration.evalVariables]
    refine (guarding.setAside _).bind fun previous kept => ?_
    refine d.steady_eval.bind fun _ => ?_
    refine (Declaration.yields_evalVariables _ rest).bind fun aside others => ?_
    cases previous with
    | none => exact yields_pure others
    | some entry =>
      refine yields_pure ?_
      split
      · exact others
      · exact List.forall_mem_cons.2 ⟨kept entry rfl, others⟩

theorem Block.still_eval (b : Block) : Still (b.eval rounds : EvalM (Watched σ) _) := by
  match b with
  | .mk statements _ =>
    rw [Block.eval]
    exact guarding.inScope (Expr.steady_evalStatements statements)

theorem Expr.steady_evalStatements (statements : List Expr) :
    Steady (Expr.evalStatements rounds statements : EvalM (Watched σ) _) := by
  match statements with
  | [] => exact steady_pure _
  | statement :: rest =>
    rw [Expr.evalStatements]
    refine statement.steady_eval.bind fun result => ?_
    split
    · exact steady_pure _
    · exact Expr.steady_evalStatements rest

theorem Conditional.steady_eval (b : Conditional) :
    Steady (b.eval rounds : EvalM (Watched σ) _) := by
  match b with
  | .only condition body =>
    rw [Conditional.eval]
    refine (steady_asValue condition.steady_eval).bind fun value => ?_
    exact steady_choice value _ body.still_eval.steady (steady_pure _)
  | .withElse condition body otherwise =>
    rw [Conditional.eval]
    refine (steady_asValue condition.steady_eval).bind fun value => ?_
    exact steady_choice value _ body.still_eval.steady otherwise.still_eval.steady
  | .withElseIf condition body next _ =>
    rw [Conditional.eval]
    refine (steady_asValue condition.steady_eval).bind fun value => ?_
    exact steady_choice value _ body.still_eval.steady next.steady_eval

end

theorem Expr.still_eval_block (body : Block) (span : Span) :
    Still ((Expr.block body span).eval rounds : EvalM (Watched σ) _) := by
  rw [Expr.eval]
  exact guards_nested (body.still_eval guarding rounds) (fun _ => rfl) span

end Walk

end ExprLang
