import ExprLang.Proofs.Soundness.Operation
import Mathlib.Data.List.Forall2

set_option autoImplicit false

/-!
Checking and evaluation, side by side, for every kind of expression: from agreeing states they lead
to agreeing states with results that fit.
-/

namespace ExprLang

namespace Soundness

variable {σ : Type} [Sink σ] {typed : Prop} {base : Array (Located RuntimeError)} {rounds : Nat}
  {c : Checker} {m : Machine σ}

variable (σ typed base rounds) in
/-- From any agreeing states, checking and evaluating the expression meet. -/
def Sound (e : Expr) : Prop :=
  ∀ (c : Checker) (m : Machine σ), Meets typed base c m e.check (e.eval rounds) (Result typed)

theorem Sound.used {e : Expr} (h : Sound σ typed base rounds e) (c : Checker) (m : Machine σ) :
    Meets typed base c m (CheckM.asValue e.span e.check) (EvalM.asValue (e.eval rounds))
      (Used typed) :=
  (h c.opened m).asValue

section Sequences

theorem meets_items {items : List Expr} (h : ∀ e ∈ items, Sound σ typed base rounds e)
    (element : Ty) (c : Checker) (m : Machine σ) :
    Meets typed base c m (Expr.checkItems element items) (Expr.evalAll rounds items)
      (fun _ values _ => typed → ∀ v ∈ values, v.HasType element) := by
  induction items generalizing c m with
  | nil =>
    rw [Expr.checkItems, Expr.evalAll]
    exact .pure fun _ _ _ => by simp
  | cons item rest ih =>
    obtain ⟨first, others⟩ := List.forall_mem_cons.1 h
    have balanced := Expr.anyhow_checkItems element rest
    rw [Expr.checkItems, Expr.evalAll]
    refine (first.used c m).bind (fun _ => CheckM.balanced_reportIf _ _ balanced)
      fun actual v c m used => .reportIf balanced fun same => ?_
    obtain rfl := Decidable.not_not.1 same
    rw [← bind_pure (Expr.checkItems actual rest)]
    refine (ih others c m).bind (fun _ => CheckM.balanced_pure _) fun _ values c m fit => ?_
    exact .pure fun _ _ ht => List.forall_mem_cons.2 ⟨used ht, fit ht⟩

theorem meets_entries {entries : List (Expr × Expr)}
    (h : ∀ e ∈ entries, Sound σ typed base rounds e.1 ∧ Sound σ typed base rounds e.2)
    (key value : Ty) (c : Checker) (m : Machine σ) :
    Meets typed base c m (Expr.checkEntries key value entries) (Expr.evalEntries rounds entries)
      (fun _ pairs _ => typed → ∀ pair ∈ pairs, pair.1.HasType key ∧ pair.2.HasType value) := by
  induction entries generalizing c m with
  | nil =>
    rw [Expr.checkEntries, Expr.evalEntries]
    exact .pure fun _ _ _ => by simp
  | cons entry rest ih =>
    obtain ⟨⟨first, second⟩, others⟩ := List.forall_mem_cons.1 h
    obtain ⟨k, v⟩ := entry
    have balanced := Expr.anyhow_checkEntries key value rest
    have balanced' : CheckM.Balanced False (do
        let actual ← CheckM.asValue v.span v.check
        if actual ≠ value then
          CheckM.report (.mixedMap value actual) v.span
        Expr.checkEntries key value rest) :=
      v.anyhow_asValue.bind fun _ => CheckM.balanced_reportIf _ _ balanced
    rw [Expr.checkEntries, Expr.evalEntries]
    refine (first.used c m).bind (fun _ => CheckM.balanced_reportIf _ _ balanced')
      fun actual x c m usedKey => .reportIf balanced' fun same => ?_
    obtain rfl := Decidable.not_not.1 same
    refine (second.used c m).bind (fun _ => CheckM.balanced_reportIf _ _ balanced)
      fun actual' y c m usedValue => .reportIf balanced fun same => ?_
    obtain rfl := Decidable.not_not.1 same
    rw [← bind_pure (Expr.checkEntries actual actual' rest)]
    refine (ih others c m).bind (fun _ => CheckM.balanced_pure _) fun _ pairs c m fit => ?_
    exact .pure fun _ _ ht => List.forall_mem_cons.2 ⟨⟨usedKey ht, usedValue ht⟩, fit ht⟩

theorem meets_arguments {arguments : List Expr} (h : ∀ e ∈ arguments, Sound σ typed base rounds e)
    (c : Checker) (m : Machine σ) :
    Meets typed base c m (Expr.checkArguments arguments) (Expr.evalAll rounds arguments)
      (fun types values _ => typed → List.Forall₂ Value.HasType values types) := by
  induction arguments generalizing c m with
  | nil =>
    rw [Expr.checkArguments, Expr.evalAll]
    exact .pure fun _ _ _ => .nil
  | cons argument rest ih =>
    obtain ⟨first, others⟩ := List.forall_mem_cons.1 h
    rw [Expr.checkArguments, Expr.evalAll]
    refine (first.used c m).bind
      (fun _ => (Expr.anyhow_checkArguments rest).bind fun _ => CheckM.balanced_pure _)
      fun type v c m used => ?_
    refine (ih others c m).bind (fun _ => CheckM.balanced_pure _) fun types values c m fit => ?_
    exact .pure fun _ _ ht => .cons (used ht) (fit ht)

end Sequences

section Declarations

theorem meets_declaration {d : Declaration} (h : Sound σ typed base rounds d.value) (c : Checker)
    (m : Machine σ) : Meets typed base c m d.check (d.eval rounds) (Used typed) := by
  obtain ⟨binding, name, type, value, span⟩ := d
  have balanced : CheckM.Balanced False (do
      CheckM.declare name.name ⟨type.type, binding⟩
      pure type.type) := (CheckM.balanced_declare _ _).bind fun _ => CheckM.balanced_pure _
  rw [Declaration.check, Declaration.eval]
  refine (h.used c m).bind (fun _ => CheckM.balanced_reportIf _ _ balanced)
    fun actual v c m used => .reportIf balanced fun same => ?_
  obtain rfl := Decidable.not_not.1 same
  exact .declare binding name type _ used

theorem balanced_laterVariables (d : Declaration) (rest : List Declaration)
    (earlier : List String) (previous : Option (Entry Ty)) :
    CheckM.Balanced False (do
      let aside ← Declaration.checkVariables (d.name.name :: earlier) rest
      match previous with
      | some entry =>
        pure (if d.name.name ∈ earlier then aside else (d.name.name, entry) :: aside)
      | none => pure aside) := by
  refine (Declaration.anyhow_checkVariables _ rest).bind fun _ => ?_
  cases previous <;> exact CheckM.balanced_pure _

/-- The entries set aside for the variables of a loop are in step too. -/
theorem meets_variables {vars : List Declaration}
    (h : ∀ d ∈ vars, Sound σ typed base rounds d.value) (earlier : List String) (c : Checker)
    (m : Machine σ) :
    Meets typed base c m (Declaration.checkVariables earlier vars)
      (Declaration.evalVariables rounds earlier vars)
      (fun left right c' => Scopes.AsideInStep (Holds typed) c'.scopes.outer earlier
        (vars.map (·.name.name)) left right) := by
  induction vars generalizing earlier c m with
  | nil =>
    rw [Declaration.checkVariables, Declaration.evalVariables]
    exact .pure fun _ _ => .nil
  | cons d rest ih =>
    obtain ⟨first, others⟩ := List.forall_mem_cons.1 h
    have setAside : Meets typed base c m (CheckM.setAside d.name.name) (EvalM.setAside d.name.name)
        (fun x y c' =>
          Scopes.Slot (Holds typed) (Scopes.entryIn d.name.name c'.scopes.outer) x y) :=
      fun agree _ => ⟨agree.erased d.name.name, agree.scopes.slots d.name.name⟩
    have later := balanced_laterVariables d rest earlier
    rw [Declaration.checkVariables, Declaration.evalVariables]
    refine setAside.bind (fun x => d.anyhow_check.bind fun _ => later x) fun x y c m slot => ?_
    refine ((meets_declaration first c m).kept d.anyhow_check).bind (fun _ => later x)
      fun _ _ c' m' declared => ?_
    refine ((ih others (d.name.name :: earlier) c' m').kept
      (Declaration.anyhow_checkVariables _ rest)).bind (fun _ => ?_)
      fun left right c'' m'' aside => ?_
    · cases x <;> exact CheckM.balanced_pure _
    · have outer := aside.2.outer.trans declared.2.outer
      have whole := Scopes.AsideInStep.cons (outer.symm ▸ slot) aside.1
      cases x <;> cases y <;> exact .pure fun _ _ => whole

end Declarations

section Blocks

/-- Statements, up to the first exit. The checker goes on after it, but only within the frame. -/
theorem ends_statements {statements : List Expr}
    (h : ∀ s ∈ statements, Sound σ typed base rounds s) (exit? : Option (Control Ty))
    (reached : typed → exit? = none) (agree : Agree typed base c m)
    (clean : ((Expr.checkStatements exit? statements).run c).2.Clean) :
    (Expr.evalStatements rounds statements).Ends m
      (fun r m' => AgreeOutside typed base c m' ∧
        (r.isSignal = false →
          Agree typed base ((Expr.checkStatements exit? statements).run c).2 m') ∧
        Result typed (((Expr.checkStatements exit? statements).run c).1.getD (.normal .none)) r
          ((Expr.checkStatements exit? statements).run c).2)
      (Foreseen typed base) := by
  induction statements generalizing exit? c m with
  | nil =>
    rw [Expr.evalStatements, EvalM.ends_pure]
    refine ⟨agree.outside, fun _ => agree, fun ht => ?_⟩
    obtain rfl := reached ht
    exact .of_normal Value.hasType_none
  | cons statement rest ih =>
    obtain ⟨first, others⟩ := List.forall_mem_cons.1 h
    have kept := statement.anyhow_check c
    rw [Expr.checkStatements, CheckM.run_bind] at *
    rw [Expr.evalStatements, EvalM.ends_bind]
    by_cases certain : exit?.isNone && (statement.check.run c).1.isSignal
    · -- The checker takes the exit for certain; only without typing can evaluation go on.
      rw [if_pos certain, CheckM.run_bind] at *
      have up : Checker.Kept True 1 (statement.check.run c).2 _ :=
        CheckM.kept_updateUnreachable_up _
      have up' := up.mono False.elim
      have after := up'.trans (Expr.kept_checkStatements_some (statement.check.run c).1 rest _)
      refine (first c m agree (after.clean clean)).mono (fun r m' both => ?_) fun _ out => out
      obtain ⟨agree', fits⟩ := both
      have signal : typed → r.isSignal = true := fun ht =>
        (fits ht).certain (Bool.and_eq_true_iff.1 certain).2
      by_cases exits : r.isSignal = true
      · rw [if_pos exits, EvalM.ends_pure]
        refine ⟨agree'.outside.before kept, fun normal => ?_, fun ht => ?_⟩
        · rw [exits] at normal
          cases normal
        · rw [Expr.checkStatements_some]
          exact (fits ht).mono fun _ => after.records
      · rw [if_neg exits]
        have agree'' : Agree typed base ((CheckM.updateUnreachable (· + 1)).run
            (statement.check.run c).2).2 m' :=
          ⟨agree'.depth.trans up.depth.symm, agree'.scopes.copied (up.copied trivial),
            fun ht => absurd (signal ht) exits, agree'.errors⟩
        refine (ih others (some _) (fun ht => absurd (signal ht) exits) agree'' clean).mono
          (fun r m'' both => ⟨both.1.before (kept.trans up'), both.2⟩) fun _ out => out
    · rw [if_neg certain] at *
      have after := Expr.kept_checkStatements (fun s (_ : s ∈ rest) => s.anyhow_check) exit?
        (statement.check.run c).2
      refine (first c m agree (after.clean clean)).mono (fun r m' both => ?_) fun _ out => out
      obtain ⟨agree', fits⟩ := both
      by_cases exits : r.isSignal = true
      · rw [if_pos exits, EvalM.ends_pure]
        refine ⟨agree'.outside.before kept, fun normal => ?_, fun ht => ⟨fun _ => exits, ?_, ?_⟩⟩
        · rw [exits] at normal
          cases normal
        · rintro s v - rfl
          cases exits
        · exact ((fits ht).mono fun _ => after.records).signal
      · rw [if_neg exits]
        exact (ih others exit? reached agree' clean).mono
          (fun r m'' both => ⟨both.1.before kept, both.2⟩) fun _ out => out

/-- The result of a block or a conditional: if not by an exit, it is left with nothing. -/
def Leaves (t : Control Ty) : Prop :=
  t.isSignal = true ∨ t = .normal .none

variable (typed) in
def Branch (t : Control Ty) (r : Control Value) (c : Checker) : Prop :=
  Result typed t r c ∧ Leaves t

/-- A branch of a conditional fits the conditional, which is a certain exit only if the branch
is. -/
theorem Branch.weaken {t t' : Control Ty} {r : Control Value} {c' : Checker}
    (h : Branch typed t r c) (leaves : Leaves t')
    (certain : t'.isSignal = true → t.isSignal = true) (kept : c.Kept True 0 c') :
    Branch typed t' r c' := by
  refine ⟨fun ht => .mono ⟨fun signal => (h.1 ht).certain (certain signal), ?_, (h.1 ht).signal⟩
    fun _ => kept.records, leaves⟩
  rintro s v rfl rfl
  rcases leaves with signal | none
  · cases signal
  · cases none
    rcases h.2 with signal | none
    · cases (h.1 ht).certain signal
    · exact (h.1 ht).normal _ v none rfl

theorem leaves_block (body : Block) (c : Checker) : Leaves (body.check.run c).1 := by
  rw [(Block.check_inside body c).1]
  cases found : ((Expr.checkStatements none body.statements).run c.entered).1 with
  | none => exact .inr rfl
  | some exit =>
    exact .inl (Expr.records_checkStatements (fun s _ => s.recorded) found).1

theorem meets_block {body : Block} (h : ∀ s ∈ body.statements, Sound σ typed base rounds s)
    (c : Checker) (m : Machine σ) :
    Meets typed base c m body.check (body.eval rounds) (Branch typed) := by
  intro agree clean
  obtain ⟨result, errors, records⟩ := Block.check_inside body c
  have inside := ends_statements h none (fun _ => rfl) agree.entered (errors.symm.trans clean)
  have kept : c.Kept True 0 (body.check.run c).2 := body.anyhow_check c
  rw [Block.eval_eq, EvalM.ends_inScope]
  refine inside.mono (fun r m' all => ?_) fun _ out => out
  obtain ⟨outside, -, fits⟩ := all
  refine ⟨(outside.left agree.live).checker kept, fun ht => ?_, leaves_block body c⟩
  rw [result]
  exact (fits ht).mono records

end Blocks

section Conditionals

theorem leaves_join (first other : Control Ty) :
    Leaves (if first.isSignal && other.isSignal then first else .normal .none) := by
  split
  next both => exact .inl (Bool.and_eq_true_iff.1 both).1
  next => exact .inr rfl

theorem certain_join (first other : Control Ty)
    (signal : (if first.isSignal && other.isSignal then first
      else .normal .none : Control Ty).isSignal = true) :
    first.isSignal = true ∧ other.isSignal = true := by
  split at signal
  next both => exact Bool.and_eq_true_iff.1 both
  next => cases signal

/-- A condition, the block that it guards, and whatever else there is to take. -/
theorem meets_branches {condition : Expr} {body : Block}
    (guard : Sound σ typed base rounds condition)
    (inside : ∀ s ∈ body.statements, Sound σ typed base rounds s) {others : CheckM (Control Ty)}
    {otherwise : EvalM σ (Control Value)} (balanced : CheckM.Balanced True others)
    (h : ∀ c m, Meets typed base c m others otherwise (Branch typed)) (compare : Bool) (span : Span)
    (c : Checker) (m : Machine σ) :
    Meets typed base c m
      (do
        let type ← CheckM.asValue condition.span condition.check
        if type.name ≠ .bool then
          CheckM.report (.nonBoolCondition type) condition.span
        let first ← body.check
        let other ← others
        CheckM.join first other compare span)
      (do
        match ← EvalM.asValue (condition.eval rounds) with
        | .bool true => body.eval rounds
        | .bool false => otherwise
        | other =>
          EvalM.report (.nonBoolCondition other.type) condition.span
          return .normal .none)
      (Branch typed) := by
  have joined (first : Control Ty) : CheckM.Balanced True (do
      let other ← others
      CheckM.join first other compare span) :=
    balanced.bind fun other => CheckM.balanced_join first other compare span
  have all : CheckM.Balanced True (do
      let first ← body.check
      let other ← others
      CheckM.join first other compare span) := body.anyhow_check.bind joined
  refine (guard.used c m).bind (fun _ => CheckM.balanced_reportIf _ _ all.anyhow)
    fun type v c m used => .reportIf all.anyhow fun truth => ?_
  have truth := Decidable.not_not.1 truth
  split
  next =>
    rw [← bind_pure (body.eval rounds)]
    refine (meets_block inside c m).bind (fun first => (joined first).anyhow)
      fun first r c m branch => .skipped (joined first) fun _ _ => ?_
    have kept := joined first c
    rw [CheckM.run_bind] at kept ⊢
    rw [CheckM.run_join] at kept ⊢
    exact branch.weaken (leaves_join ..) (fun signal => (certain_join _ _ signal).1) kept
  next =>
    refine .skip body.anyhow_check ?_
    rw [← bind_pure otherwise]
    refine (h _ m).bind (fun other => CheckM.balanced_join _ other compare span)
      fun other r c' m branch => .skipped (CheckM.balanced_join _ other compare span) fun _ _ => ?_
    have kept : c'.Kept True 0 _ := CheckM.balanced_join (body.check.run c).1 other compare span c'
    rw [CheckM.run_join] at kept ⊢
    exact branch.weaken (leaves_join ..) (fun signal => (certain_join _ _ signal).2) kept
  next notTrue notFalse =>
    have untyped : ¬ typed := by
      intro ht
      obtain ⟨b, rfl, -⟩ := (used ht).truth truth
      cases b
      · exact notFalse rfl
      · exact notTrue rfl
    refine .report ⟨rfl, fun ht => absurd ht untyped⟩ _ (.skipped all fun _ _ => ?_)
    refine ⟨fun ht => absurd ht untyped, ?_⟩
    rw [CheckM.run_bind, CheckM.run_bind, CheckM.run_join]
    exact leaves_join ..

theorem Conditional.check_only (condition : Expr) (body : Block) (span : Span) :
    (Conditional.only condition body).check span = (do
      let type ← CheckM.asValue condition.span condition.check
      if type.name ≠ .bool then
        CheckM.report (.nonBoolCondition type) condition.span
      let first ← body.check
      let other ← pure (.normal .none)
      CheckM.join first other false span) := by
  have joined : ∀ first, (pure (.normal .none) : CheckM (Control Ty)) =
      CheckM.join first (.normal .none) false span := by
    intro first
    simp [CheckM.join, Control.isSignal]
  simp only [Conditional.check, CheckM.liftM_step, pure_bind, ← joined]

theorem meets_conditional (branches : Conditional) (span : Span)
    (h : ∀ e ∈ branches.children, Sound σ typed base rounds e)
    (quiet : ∀ e ∈ branches.conditions.tail, e.Quiet) (c : Checker) (m : Machine σ) :
    Meets typed base c m (branches.check span) (branches.eval rounds) (Branch typed) := by
  match branches with
  | .only condition body =>
    obtain ⟨guard, inside⟩ := List.forall_mem_cons.1 h
    rw [Conditional.check_only, Conditional.eval]
    refine meets_branches guard inside (CheckM.balanced_pure _) (fun c m => ?_) false span c m
    exact .pure fun _ _ => ⟨fun _ => .of_normal Value.hasType_none, .inr rfl⟩
  | .withElse condition body otherwise =>
    obtain ⟨guard, inside⟩ := List.forall_mem_cons.1 h
    obtain ⟨first, second⟩ := List.forall_mem_append.1 inside
    rw [Conditional.check, Conditional.eval]
    exact meets_branches guard first otherwise.anyhow_check (meets_block second) true _ c m
  | .withElseIf condition body next nextSpan =>
    obtain ⟨guard, inside⟩ := List.forall_mem_cons.1 h
    obtain ⟨first, second⟩ := List.forall_mem_append.1 inside
    have balanced : CheckM.Balanced True (next.check nextSpan) :=
      next.balanced_check nextSpan (fun e inside => e.balanced_check.mono fun _ => quiet e inside)
        fun e _ => e.anyhow_check
    rw [Conditional.check, Conditional.eval]
    refine meets_branches guard first balanced (meets_conditional next nextSpan second ?_)
      next.isExhaustive _ c m
    exact fun e inside => quiet e (List.mem_of_mem_tail inside)

end Conditionals

section Loops

omit [Sink σ] in
/-- After a round the next one can begin: a block brings back the frames there were. -/
theorem agree_again {body : Block} (agree : Agree typed base (body.check.run c.opened).2 m) :
    Agree typed base c.opened m := by
  have kept : c.opened.Kept True 0 (body.check.run c.opened).2 := body.anyhow_check c.opened
  have same : (body.check.run c.opened).2.scopes = c.opened.scopes :=
    Block.scopes_check (fun s _ => s.anyhow_check) c.opened
  exact ⟨agree.depth.trans kept.depth, same ▸ agree.scopes, fun _ => c.live_opened, agree.errors⟩

theorem ends_untilExit {body : Block} (h : ∀ s ∈ body.statements, Sound σ typed base rounds s)
    (clean : (body.check.run c.opened).2.Clean) (n : Nat) (agree : Agree typed base c.opened m) :
    (EvalM.untilExit (body.eval rounds) n).Ends m
      (fun v m' => Agree typed base (body.check.run c.opened).2 m' ∧
        (typed → v.HasType ((body.check.run c.opened).2.exitType.getD .none)))
      (Foreseen typed base) := by
  induction n generalizing m with
  | zero =>
    rw [EvalM.untilExit, EvalM.ends_throw]
    exact agree.errors
  | succ n ih =>
    rw [EvalM.untilExit, EvalM.ends_bind]
    refine (meets_block h c.opened m agree clean).mono (fun r m' both => ?_) fun _ out => out
    obtain ⟨agree', branch⟩ := both
    have kept : c.opened.Kept True 0 (body.check.run c.opened).2 := body.anyhow_check c.opened
    by_cases exits : r.isSignal = true
    · rw [if_pos exits, EvalM.ends_pure]
      refine ⟨agree', fun ht => ?_⟩
      obtain ⟨s, hasType, records⟩ := (branch.1 ht).signal exits
      rwa [kept.exitType_of_records records]
    · rw [if_neg exits]
      exact ih (agree_again agree')

theorem meets_loop {vars : List Declaration} {body : Block}
    (initial : ∀ d ∈ vars, Sound σ typed base rounds d.value)
    (inside : ∀ s ∈ body.statements, Sound σ typed base rounds s) (c : Checker) (m : Machine σ) :
    Meets typed base c m
      (fun c =>
        (.normal ((body.check.run
          ((Declaration.checkVariables [] vars).run c).2.opened).2.exitType.getD .none),
          c.afterLoop vars body))
      (do
        let aside ← Declaration.evalVariables rounds [] vars
        let value ← EvalM.untilExit (body.eval rounds) rounds
        modify fun m => { m with scopes := m.scopes.restore (vars.map (·.name.name)) aside }
        return .normal value)
      (Result typed) := by
  intro agree clean
  have inner : (body.check.run ((Declaration.checkVariables [] vars).run c).2.opened).2.Clean :=
    clean
  have kept : Checker.Kept True 0 ((Declaration.checkVariables [] vars).run c).2.opened _ :=
    body.anyhow_check _
  have same : (body.check.run ((Declaration.checkVariables [] vars).run c).2.opened).2.scopes =
      ((Declaration.checkVariables [] vars).run c).2.scopes :=
    Block.scopes_check (fun s _ => s.anyhow_check) _
  have header : ((Declaration.checkVariables [] vars).run c).2.Clean := kept.clean inner
  rw [EvalM.ends_bind]
  refine (meets_variables initial [] c m agree header).mono (fun aside m' both => ?_)
    fun _ out => out
  obtain ⟨agree', asideInStep⟩ := both
  rw [EvalM.ends_bind]
  refine (ends_untilExit inside inner rounds agree'.opened).mono (fun v m'' both => ?_)
    fun _ out => out
  obtain ⟨agree'', used⟩ := both
  rw [EvalM.ends_bind, EvalM.ends_modify, EvalM.ends_pure]
  have restored := Scopes.InStep.restore (same ▸ agree''.scopes) asideInStep
  rw [← same] at restored
  exact ⟨⟨agree''.depth, restored, fun ht => kept.live_closed (agree'.live ht), agree''.errors⟩,
    fun ht => .of_normal (used ht)⟩

end Loops

section Calls

theorem meets_call {callee : Ident} {types : List Ty} {values : List Value} (span : Span)
    (h : typed → List.Forall₂ Value.HasType values types) :
    Meets typed base c m
      (do
        match Builtin.ofName? callee.name with
        | some f => return .normal (← CheckM.settle (f.verdict types) span)
        | none =>
          CheckM.report (.unknownFunction callee.name) span
          return .normal .none)
      (do
        match Builtin.ofName? callee.name with
        | none =>
          EvalM.report (.unknownFunction callee.name) span
          return .normal .none
        | some f =>
          match ← f.call values with
          | .ok value => return .normal value
          | .error cause =>
            EvalM.report cause span
            return .normal .none)
      (Result typed) := by
  intro agree clean
  cases known : Builtin.ofName? callee.name with
  | none =>
    rw [known] at clean
    exact absurd clean (c.not_clean_noted _ _)
  | some f =>
    rw [known] at clean
    obtain ⟨accepted, eq⟩ := CheckM.settle_of_clean (c := c) clean
    rw [EvalM.ends_bind]
    refine (ends_call agree h accepted).mono (fun result m' both => ?_) fun _ out => out
    obtain ⟨agree', called⟩ := both
    simp only [CheckM.run_bind, CheckM.run_pure, eq]
    cases result with
    | ok v => exact ⟨agree', fun ht => .of_normal (called ht)⟩
    | error cause =>
      exact ⟨agree'.noted span ⟨called.1, fun ht => absurd ht called.2⟩,
        fun ht => absurd ht called.2⟩

end Calls

/-- Checking and evaluation of an expression meet, unless a declaration stands where the evaluator
may pass it by. -/
theorem sound (e : Expr) (quiet : e.QuietElseIfs) : Sound σ typed base rounds e := by
  induction e using Expr.childInduction with
  | step e ih =>
  have inner : ∀ x ∈ e.children, Sound σ typed base rounds x := fun x inside =>
    ih x inside (quiet.child inside)
  intro c m
  cases e with
  | literal value =>
    rw [Expr.check, Expr.eval]
    exact .nested _ (.pure fun _ _ _ => .of_normal value.value_hasType)
  | list items =>
    cases items with
    | nil =>
      rw [Expr.check, Expr.eval, Expr.evalAll, pure_bind]
      exact .nested _ (.pure fun _ _ _ => .of_normal (Value.hasType_list .none (by simp)))
    | cons first rest =>
      obtain ⟨head, others⟩ := List.forall_mem_cons.1 inner
      rw [Expr.check, Expr.eval, Expr.evalAll]
      simp only [bind_assoc, pure_bind]
      refine .nested _ ?_
      refine (head.used _ _).bind
        (fun element => (Expr.anyhow_checkItems element rest).bind fun _ => CheckM.balanced_pure _)
        fun element v c m used => ?_
      refine (meets_items others element c m).bind (fun _ => CheckM.balanced_pure _)
        fun _ values c m fit => .pure fun _ _ ht => .of_normal ?_
      rw [(used ht).type]
      exact Value.hasType_list (used ht).wellFormed (List.forall_mem_cons.2 ⟨used ht, fit ht⟩)
  | map entries =>
    have parts : ∀ entry ∈ entries,
        Sound σ typed base rounds entry.1 ∧ Sound σ typed base rounds entry.2 := fun entry inside =>
      ⟨inner _ (List.mem_flatMap.2 ⟨entry, inside, by simp⟩),
        inner _ (List.mem_flatMap.2 ⟨entry, inside, by simp⟩)⟩
    cases entries with
    | nil =>
      rw [Expr.check, Expr.eval, Expr.evalEntries, pure_bind]
      exact .nested _
        (.pure fun _ _ _ => .of_normal (Value.hasType_mapOfPairs .none .none (by simp)))
    | cons entry rest =>
      obtain ⟨⟨first, second⟩, others⟩ := List.forall_mem_cons.1 parts
      obtain ⟨key, value⟩ := entry
      rw [Expr.check, Expr.eval, Expr.evalEntries]
      simp only [bind_assoc, pure_bind]
      have later (keyType valueType : Ty) : CheckM.Balanced False (do
          Expr.checkEntries keyType valueType rest
          pure (Control.normal (Ty.map keyType valueType))) :=
        (Expr.anyhow_checkEntries _ _ rest).bind fun _ => CheckM.balanced_pure _
      refine .nested _ ((first.used _ _).bind (fun k => value.anyhow_asValue.bind (later k))
        fun keyType k c m usedKey => ?_)
      refine (second.used c m).bind (later keyType) fun valueType v c m usedValue => ?_
      refine (meets_entries others keyType valueType c m).bind (fun _ => CheckM.balanced_pure _)
        fun _ pairs c m fit => .pure fun _ _ ht => .of_normal ?_
      rw [(usedKey ht).type, (usedValue ht).type]
      exact Value.hasType_mapOfPairs (usedKey ht).wellFormed (usedValue ht).wellFormed
        (List.forall_mem_cons.2 ⟨⟨usedKey ht, usedValue ht⟩, fit ht⟩)
  | name ident =>
    rw [Expr.check, Expr.eval]
    exact .nested _ (.normal (.lookup ident))
  | unary op operand =>
    rw [Expr.check, Expr.eval]
    refine .nested _ (((inner operand (by simp [Expr.children])).used _ _).bind
      (fun _ => (CheckM.balanced_settle _ _).bind fun _ => CheckM.balanced_pure _)
      fun type v c m used => .normal (.settle _ fun accepted agree => ?_))
    exact ends_unary _ agree used accepted
  | binary op lhs rhs =>
    rw [Expr.check, Expr.eval]
    refine .nested _ (((inner lhs (by simp [Expr.children])).used _ _).bind
      (fun _ => rhs.anyhow_asValue.bind fun _ => (CheckM.balanced_settle _ _).bind
        fun _ => CheckM.balanced_pure _) fun left l c m usedLeft => ?_)
    refine ((inner rhs (by simp [Expr.children])).used _ _).bind
      (fun _ => (CheckM.balanced_settle _ _).bind fun _ => CheckM.balanced_pure _)
      fun right r c m usedRight => .normal (.settle _ fun accepted agree => ?_)
    exact ends_binary _ agree usedLeft usedRight accepted
  | declare d =>
    rw [Expr.check, Expr.eval]
    exact .nested _ (.normal (meets_declaration (inner _ (by simp [Expr.children])) _ _))
  | assign target value =>
    rw [Expr.check, Expr.eval]
    refine .nested _ (((inner value (by simp [Expr.children])).used _ _).bind
      (fun _ => (CheckM.balanced_assign _ _ _ _).bind fun _ => CheckM.balanced_pure _)
      fun type v c m used => ?_)
    refine (Meets.assign used).bind (fun _ => CheckM.balanced_pure _) fun t _ c m fit => ?_
    exact .pure fun _ _ ht => .of_normal (fit ht)
  | block body =>
    rw [Expr.check, Expr.eval]
    exact .nested _ ((meets_block inner _ _).mono fun _ _ _ branch => branch.1)
  | cond branches =>
    rw [Expr.check, Expr.eval]
    exact .nested _ ((meets_conditional branches _ inner quiet.self _ _).mono
      fun _ _ _ branch => branch.1)
  | loop vars body =>
    obtain ⟨initial, inside⟩ := List.forall_mem_append.1 inner
    rw [Expr.check_loop, Expr.eval]
    refine .nested _ (meets_loop (fun d here => ?_) inside _ _)
    exact initial _ (List.mem_map_of_mem here)
  | exit kind value =>
    cases value with
    | none =>
      rw [Expr.check, Expr.eval]
      exact .nested _ (.exit kind _ fun _ => Value.hasType_none)
    | some value =>
      rw [Expr.check, Expr.eval]
      refine .nested _ (((inner value (by simp [Expr.children])).used _ _).bind
        (fun _ => (CheckM.balanced_recordExit _ _).bind fun _ => CheckM.balanced_pure _)
        fun type v c m used => ?_)
      exact .exit kind _ used
  | call callee arguments =>
    rw [Expr.check, Expr.eval]
    refine .nested _ ((meets_arguments inner _ _).bind (fun types => ?_)
      fun types values c m fit => meets_call _ fit)
    cases Builtin.ofName? callee.name with
    | none => exact (CheckM.balanced_report _ _).bind fun _ => CheckM.balanced_pure _
    | some f => exact (CheckM.balanced_settle _ _).bind fun _ => CheckM.balanced_pure _

end Soundness

end ExprLang
