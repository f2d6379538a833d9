import ExprLang.Proofs.CheckerRun
import ExprLang.Proofs.ScopeAgreement
import ExprLang.Proofs.Subexpr

set_option autoImplicit false

/-!
The bookkeeping of the checker is balanced: whatever a node is, checking it leaves the nesting, the
frames around the current one and the open consumers as they were, and only adds errors. A node
without declarations leaves the current frame alone too, but for copies.
-/

namespace ExprLang

/-- Open consumers before and after: only the innermost may change. Its first exit stays, and `k`
more blocks have been left before the current statement. -/
inductive ExitFrame.Kept (k : Nat) : List ExitFrame → List ExitFrame → Prop where
  | top : Kept k [] []
  | inner {frame frame' : ExitFrame} {frames : List ExitFrame}
      (unreachable : frame'.unreachable = frame.unreachable + k)
      (type : ∀ t, frame.type = some t → frame'.type = some t) :
      Kept k (frame :: frames) (frame' :: frames)

theorem ExitFrame.Kept.refl (frames : List ExitFrame) : ExitFrame.Kept 0 frames frames := by
  cases frames with
  | nil => exact .top
  | cons frame frames => exact .inner rfl fun _ h => h

theorem ExitFrame.Kept.trans {j k : Nat} {f g h : List ExitFrame} (first : ExitFrame.Kept j f g)
    (second : ExitFrame.Kept k g h) : ExitFrame.Kept (j + k) f h := by
  cases first with
  | top =>
    cases second
    exact .top
  | inner unreachable type =>
    cases second with
    | inner unreachable' type' => exact .inner (by omega) fun t ht => type' t (type t ht)

theorem ExitFrame.Kept.tail {k : Nat} {f g : List ExitFrame} (h : ExitFrame.Kept k f g) :
    g.tail = f.tail := by
  cases h <;> rfl

theorem ExitFrame.Kept.ne_nil {k : Nat} {frame : ExitFrame} {f g : List ExitFrame}
    (h : ExitFrame.Kept k (frame :: f) g) : g ≠ [] := by
  cases h
  exact List.cons_ne_nil _ _

/-- A count to which something has been added is not zero. -/
theorem ExitFrame.Kept.counted {k : Nat} {f g : List ExitFrame} (h : ExitFrame.Kept (k + 1) f g) :
    ∀ frame ∈ g.head?, 0 < frame.unreachable := by
  cases h with
  | top => rintro frame ⟨⟩
  | inner unreachable _ =>
    rintro frame ⟨⟩
    rw [unreachable]
    exact Nat.succ_pos _

/-- What stays as it was from one state of the checker to a later one. -/
structure Checker.Kept (quiet : Prop) (k : Nat) (c c' : Checker) : Prop where
  depth : c'.depth = c.depth
  outer : c'.scopes.outer = c.scopes.outer
  copied : quiet → Scopes.Copied c.scopes c'.scopes
  exits : ExitFrame.Kept k c.exits c'.exits
  errors : c.errors.toList <+: c'.errors.toList

namespace Checker.Kept

variable {quiet quiet' : Prop} {j k : Nat} {c c' c'' : Checker}

theorem refl (c : Checker) : Kept quiet 0 c c :=
  ⟨rfl, rfl, fun _ => .refl _, .refl _, List.prefix_rfl⟩

theorem trans (first : Kept quiet j c c') (second : Kept quiet k c' c'') :
    Kept quiet (j + k) c c'' :=
  ⟨second.depth.trans first.depth, second.outer.trans first.outer,
    fun q => (first.copied q).trans (second.copied q), first.exits.trans second.exits,
    first.errors.trans second.errors⟩

/-- The type of the exits that have reached the innermost consumer stays, once there is one. -/
theorem exitType_eq {t : Ty} (h : Kept quiet k c c') (seen : c.exitType = some t) :
    c'.exitType = some t := by
  obtain ⟨-, -, -, exits, -⟩ := h
  unfold Checker.exitType at seen ⊢
  generalize c.exits = f at exits seen
  generalize c'.exits = g at exits
  cases exits with
  | top => cases seen
  | inner _ type => exact type t seen

theorem mono (h : Kept quiet k c c') (weaker : quiet' → quiet) : Kept quiet' k c c' :=
  { h with copied := fun q => h.copied (weaker q) }

theorem noted (c : Checker) (cause : TypeError) (span : Span) :
    Kept quiet 0 c (c.noted cause span) :=
  ⟨rfl, rfl, fun _ => .refl _, .refl _, by simp [Checker.noted]⟩

theorem notedIf (c : Checker) (reason : Prop) [Decidable reason] (cause : TypeError)
    (span : Span) : Kept quiet 0 c (c.notedIf reason cause span) := by
  unfold Checker.notedIf
  split
  · exact noted c cause span
  · exact refl c

theorem copying {c : Checker} {name : String} {entry : Entry Ty} {frame : Nat}
    (found : c.scopes.find? name = some (entry, frame)) :
    Kept quiet 0 c (c.copying name entry frame) := by
  unfold Checker.copying
  split
  next copies => exact ⟨rfl, rfl, fun _ => .insert found copies.2, .refl _, List.prefix_rfl⟩
  next => exact refl c

/-- What a node one level further in keeps, it keeps here. -/
theorem nested (h : Kept quiet k c.deeper c') : Kept quiet k c c'.shallower :=
  ⟨by simp [Checker.shallower, h.depth, Checker.deeper], h.outer, h.copied, h.exits, h.errors⟩

/-- Leaving the frame that was entered brings back the frames there were. -/
theorem left_scopes (h : Kept quiet k c.entered c') : c'.left.scopes = c.scopes := by
  have outer : c'.scopes.outer = c.scopes.current :: c.scopes.outer := h.outer
  simp only [Checker.left, Scopes.exit, outer]

theorem inScope (h : Kept quiet k c.entered c') : Kept quiet' k c c'.left := by
  have same := h.left_scopes
  exact ⟨h.depth, by rw [same], fun _ => same ▸ .refl _, h.exits, h.errors⟩

theorem consuming (h : Kept quiet k c.opened c') : Kept quiet 0 c c'.closed := by
  have same : c'.closed.exits = c.exits := h.exits.tail
  exact ⟨h.depth, h.outer, h.copied, same ▸ .refl _, h.errors⟩

end Checker.Kept

namespace CheckM

variable {α β : Type} {quiet quiet' : Prop}

/-- Checking a node leaves the bookkeeping as it was, from whatever state. -/
def Balanced (quiet : Prop) (node : CheckM α) : Prop :=
  ∀ c, Checker.Kept quiet 0 c (node.run c).2

theorem Balanced.mono {node : CheckM α} (h : Balanced quiet node) (weaker : quiet' → quiet) :
    Balanced quiet' node :=
  fun c => (h c).mono weaker

theorem Balanced.anyhow {node : CheckM α} (h : Balanced quiet node) : Balanced False node :=
  h.mono False.elim

theorem balanced_pure (a : α) : Balanced quiet (pure a : CheckM α) :=
  fun c => .refl c

theorem Balanced.bind {x : CheckM α} {f : α → CheckM β} (first : Balanced quiet x)
    (second : ∀ a, Balanced quiet (f a)) : Balanced quiet (x >>= f) := by
  intro c
  rw [run_bind]
  exact (first c).trans (second _ _)

theorem balanced_report (cause : TypeError) (span : Span) : Balanced quiet (report cause span) :=
  fun c => .noted c cause span

/-- The usual way to complain: under a condition, before going on. -/
theorem balanced_reportIf {reason : Prop} [Decidable reason] (cause : TypeError) (span : Span)
    {next : Unit → CheckM α} (h : Balanced quiet (next ())) :
    Balanced quiet (if reason then report cause span >>= next else next ()) := by
  intro c
  rw [run_reportIf]
  exact (Checker.Kept.notedIf c reason cause span).trans (h _)

theorem balanced_settle (verdict : Verdict) (span : Span) :
    Balanced quiet (settle verdict span) := by
  intro c
  rw [run_settle]
  cases verdict.complaint with
  | none => exact .refl c
  | some complaint => exact .noted c complaint span

theorem balanced_nested (span : Span) {node : CheckM (Control Ty)} (h : Balanced quiet node) :
    Balanced quiet (nested span node) := by
  intro c
  rw [run_nested]
  split
  · exact .noted c .tooDeep span
  · exact (h c.deeper).nested

theorem balanced_consuming {node : CheckM α} (h : Balanced quiet node) :
    Balanced quiet (consuming node) :=
  fun c => (h c.opened).consuming

theorem balanced_asValue (span : Span) {node : CheckM (Control Ty)} (h : Balanced quiet node) :
    Balanced quiet (asValue span node) := by
  intro c
  have closed := (h c.opened).consuming
  rw [run_asValue]
  split
  · exact closed.trans (.notedIf ..)
  · exact closed

theorem balanced_recordExit (type : Ty) (span : Span) : Balanced quiet (recordExit type span) := by
  intro c
  match exits : c.exits with
  | [] =>
    rw [run_recordExit_top exits]
    exact .refl c
  | frame :: frames =>
    by_cases live : frame.unreachable = 0
    · cases seen : frame.type with
      | none =>
        rw [run_recordExit_first exits live seen]
        refine ⟨rfl, rfl, fun _ => .refl _, ?_, List.prefix_rfl⟩
        rw [exits]
        refine .inner rfl fun t h => ?_
        rw [seen] at h
        cases h
      | some expected =>
        rw [run_recordExit_again exits live seen]
        exact .notedIf ..
    · rw [run_recordExit_unreachable exits live]
      exact .refl c

theorem balanced_lookup (ident : Ident) : Balanced quiet (lookup ident) := by
  intro c
  rw [run_lookup]
  split
  · exact .refl c
  · exact .noted ..

theorem balanced_assign (target : Ident) (actual : Ty) (site : Unit → String) (span : Span) :
    Balanced quiet (assign target actual site span) := by
  intro c
  match found : c.scopes.find? target.name with
  | none =>
    rw [run_assign_unbound found]
    exact .noted ..
  | some (entry, frame) =>
    rw [run_assign_bound found]
    refine ((Checker.Kept.notedIf ..).trans (.notedIf ..)).trans (.copying ?_)
    rwa [Checker.scopes_notedIf, Checker.scopes_notedIf]

theorem balanced_declare (name : String) (entry : Entry Ty) :
    Balanced False (declare name entry) :=
  fun _ => ⟨rfl, rfl, False.elim, .refl _, List.prefix_rfl⟩

theorem balanced_restore (names : List String) (aside : List (String × Entry Ty)) :
    Balanced False (restore names aside) :=
  fun _ => ⟨rfl, Scopes.outer_restore .., False.elim, .refl _, List.prefix_rfl⟩

theorem balanced_setAside (name : String) : Balanced False (setAside name) :=
  fun _ => ⟨rfl, rfl, False.elim, .refl _, List.prefix_rfl⟩

theorem balanced_join (first other : Control Ty) (compare : Bool) (span : Span) :
    Balanced quiet (join first other compare span) := by
  intro c
  rw [run_join]
  exact .notedIf ..

theorem kept_updateUnreachable_up (c : Checker) :
    Checker.Kept quiet 1 c ((updateUnreachable (· + 1)).run c).2 := by
  match exits : c.exits with
  | [] =>
    rw [run_updateUnreachable_top exits]
    exact ⟨rfl, rfl, fun _ => .refl _, exits ▸ .top, List.prefix_rfl⟩
  | frame :: frames =>
    rw [run_updateUnreachable_inner exits]
    exact ⟨rfl, rfl, fun _ => .refl _, exits ▸ .inner rfl fun _ h => h, List.prefix_rfl⟩

theorem kept_updateUnreachable_down {k : Nat} {c c' : Checker}
    (h : Checker.Kept quiet (k + 1) c c') :
    Checker.Kept quiet k c ((updateUnreachable (· - 1)).run c').2 := by
  obtain ⟨depth, outer, copied, exits, errors⟩ := h
  generalize before : c.exits = f at exits
  generalize after : c'.exits = g at exits
  cases exits with
  | top =>
    rw [run_updateUnreachable_top after]
    exact ⟨depth, outer, copied, by rw [before, after]; exact .top, errors⟩
  | inner unreachable type =>
    rw [run_updateUnreachable_inner after]
    exact ⟨depth, outer, copied, before ▸ .inner (by simp only; omega) type, errors⟩

end CheckM

open CheckM

variable {quiet : Prop}

theorem Expr.balanced_checkItems {items : List Expr} (element : Ty)
    (h : ∀ e ∈ items, Balanced quiet e.check) : Balanced quiet (Expr.checkItems element items) := by
  induction items with
  | nil => exact balanced_pure _
  | cons item rest ih =>
    rw [Expr.checkItems]
    refine (balanced_asValue _ (h item (List.mem_cons_self ..))).bind fun actual => ?_
    exact balanced_reportIf _ _ (ih fun e inside => h e (List.mem_cons_of_mem _ inside))

theorem Expr.balanced_checkEntries {entries : List (Expr × Expr)} (key value : Ty)
    (h : ∀ e ∈ entries, Balanced quiet e.1.check ∧ Balanced quiet e.2.check) :
    Balanced quiet (Expr.checkEntries key value entries) := by
  induction entries with
  | nil => exact balanced_pure _
  | cons entry rest ih =>
    obtain ⟨first, second⟩ := h entry (List.mem_cons_self ..)
    obtain ⟨k, v⟩ := entry
    rw [Expr.checkEntries]
    refine (balanced_asValue _ first).bind fun actual => balanced_reportIf _ _ ?_
    refine (balanced_asValue _ second).bind fun actual => balanced_reportIf _ _ ?_
    exact ih fun e inside => h e (List.mem_cons_of_mem _ inside)

theorem Expr.balanced_checkArguments {arguments : List Expr}
    (h : ∀ e ∈ arguments, Balanced quiet e.check) :
    Balanced quiet (Expr.checkArguments arguments) := by
  induction arguments with
  | nil => exact balanced_pure _
  | cons argument rest ih =>
    rw [Expr.checkArguments]
    refine (balanced_asValue _ (h argument (List.mem_cons_self ..))).bind fun type => ?_
    refine (ih fun e inside => h e (List.mem_cons_of_mem _ inside)).bind fun types => ?_
    exact balanced_pure _

/-- A declaration uses a value; what it does with it is balanced. -/
theorem Declaration.check_eq (d : Declaration) :
    ∃ declare : Ty → CheckM Ty, d.check = asValue d.value.span d.value.check >>= declare ∧
      ∀ actual, Balanced False (declare actual) := by
  obtain ⟨binding, name, type, value, span⟩ := d
  rw [Declaration.check]
  refine ⟨_, rfl, fun actual => balanced_reportIf _ _ ?_⟩
  exact (balanced_declare _ _).bind fun _ => balanced_pure _

theorem Declaration.balanced_check {d : Declaration} (h : Balanced False d.value.check) :
    Balanced False d.check := by
  obtain ⟨declare, eq, balanced⟩ := d.check_eq
  rw [eq]
  exact (balanced_asValue _ h).bind balanced

theorem Declaration.balanced_checkVariables {vars : List Declaration} (earlier : List String)
    (h : ∀ d ∈ vars, Balanced False d.value.check) :
    Balanced False (Declaration.checkVariables earlier vars) := by
  induction vars generalizing earlier with
  | nil => exact balanced_pure _
  | cons d rest ih =>
    rw [Declaration.checkVariables]
    refine (balanced_setAside _).bind fun previous => ?_
    refine (Declaration.balanced_check (h d (List.mem_cons_self ..))).bind fun _ => ?_
    refine (ih _ fun e inside => h e (List.mem_cons_of_mem _ inside)).bind fun aside => ?_
    cases previous <;> exact balanced_pure _

/-- The first variable of a loop, and then the others. -/
theorem Declaration.run_checkVariables (earlier : List String) (d : Declaration)
    (rest : List Declaration) (c : Checker) :
    (Declaration.checkVariables earlier (d :: rest)).run c =
      let others := (Declaration.checkVariables (d.name.name :: earlier) rest).run
        (d.check.run (c.erased d.name.name)).2
      (Scopes.setAsideFirst earlier d.name.name (c.scopes.current.get? d.name.name) others.1,
        others.2) := by
  rw [Declaration.checkVariables, run_bind, liftM_step, run_setAside, run_bind, run_bind]
  cases c.scopes.current.get? d.name.name <;> rfl

/-- After a certain exit, no other one takes its place. -/
theorem Expr.checkStatements_some (exit : Control Ty) (statements : List Expr) (c : Checker) :
    ((Expr.checkStatements (some exit) statements).run c).1 = some exit := by
  induction statements generalizing c with
  | nil => rfl
  | cons statement rest ih =>
    rw [Expr.checkStatements, run_bind]
    exact ih _

/-- A block in which a certain exit is met counts as left, once. -/
theorem Expr.kept_checkStatements {statements : List Expr}
    (h : ∀ s ∈ statements, Balanced False s.check) (exit? : Option (Control Ty)) (c : Checker) :
    Checker.Kept False
      (if exit? = none ∧ ((Expr.checkStatements exit? statements).run c).1 ≠ none then 1 else 0) c
      ((Expr.checkStatements exit? statements).run c).2 := by
  induction statements generalizing exit? c with
  | nil =>
    have same : ((Expr.checkStatements exit? []).run c).1 = exit? := rfl
    rw [same, if_neg fun both => both.2 both.1]
    exact .refl c
  | cons statement rest ih =>
    have rest' := ih fun s inside => h s (List.mem_cons_of_mem _ inside)
    have first := h statement (List.mem_cons_self ..) c
    rw [Expr.checkStatements, run_bind]
    by_cases certain : exit?.isNone && (statement.check.run c).1.isSignal
    · rw [if_pos certain, run_bind, Expr.checkStatements_some]
      have none : exit? = none := by simp_all
      rw [if_pos ⟨none, by simp⟩]
      have up := first.trans (kept_updateUnreachable_up _)
      simpa using up.trans (rest' (some _) _)
    · rw [if_neg certain]
      simpa using first.trans (rest' exit? _)

theorem Block.check_eq (body : Block) :
    body.check = inScope (do
      let exit? ← Expr.checkStatements none body.statements
      if exit?.isSome then
        updateUnreachable (· - 1)
      pure (exit?.getD (.normal .none))) := by
  cases body
  rw [Block.check]
  rfl

/-- What happens inside a block is balanced: a block that is left for certain is counted once, and
the count is taken back at its end. -/
theorem Block.balanced_inside {statements : List Expr}
    (h : ∀ s ∈ statements, Balanced False s.check) :
    Balanced False (do
      let exit? ← Expr.checkStatements none statements
      if exit?.isSome then
        updateUnreachable (· - 1)
      pure (exit?.getD (.normal .none))) := by
  intro c
  have inside := Expr.kept_checkStatements h none c
  rw [run_bind]
  cases exit : ((Expr.checkStatements none statements).run c).1 with
  | none =>
    rw [exit, if_neg fun both => both.2 rfl] at inside
    exact inside
  | some exit =>
    rw [exit, if_pos ⟨rfl, by simp⟩] at inside
    exact kept_updateUnreachable_down inside

/-- What happens inside a block, up to the point where its frame is left. -/
theorem Block.kept_inside {body : Block} (h : ∀ s ∈ body.statements, Balanced False s.check)
    (c : Checker) :
    ∃ c', Checker.Kept False 0 c.entered c' ∧ (body.check.run c).2 = c'.left := by
  rw [Block.check_eq, run_inScope]
  exact ⟨_, Block.balanced_inside h c.entered, rfl⟩

theorem Block.balanced_check {body : Block} (h : ∀ s ∈ body.statements, Balanced False s.check) :
    Balanced quiet body.check := by
  intro c
  obtain ⟨c', kept, eq⟩ := Block.kept_inside h c
  rw [eq]
  exact kept.inScope

/-- Checking a block brings back the frames there were. -/
theorem Block.scopes_check {body : Block} (h : ∀ s ∈ body.statements, Balanced False s.check)
    (c : Checker) : (body.check.run c).2.scopes = c.scopes := by
  obtain ⟨c', kept, eq⟩ := Block.kept_inside h c
  rw [eq]
  exact kept.left_scopes

/-- The links of a conditional: conditions count for what happens to the current frame, blocks do
not. -/
theorem Conditional.balanced_check (branches : Conditional) (span : Span)
    (conditions : ∀ e ∈ branches.conditions, Balanced quiet e.check)
    (h : ∀ e ∈ branches.children, Balanced False e.check) :
    Balanced quiet (branches.check span) := by
  match branches with
  | .only condition body =>
    rw [Conditional.check]
    refine (balanced_asValue _ (conditions _ (List.mem_cons_self ..))).bind fun type => ?_
    refine balanced_reportIf _ _ (Balanced.bind (Block.balanced_check ?_) fun _ => balanced_pure _)
    exact fun s inside => h s (List.mem_cons_of_mem _ inside)
  | .withElse condition body otherwise =>
    rw [Conditional.check]
    refine (balanced_asValue _ (conditions _ (List.mem_cons_self ..))).bind fun type => ?_
    refine balanced_reportIf _ _ (Balanced.bind (Block.balanced_check ?_) fun first => ?_)
    · exact fun s inside => h s (List.mem_cons_of_mem _ (List.mem_append_left _ inside))
    · refine Balanced.bind (Block.balanced_check ?_) fun other => balanced_join _ _ _ _
      exact fun s inside => h s (List.mem_cons_of_mem _ (List.mem_append_right _ inside))
  | .withElseIf condition body next nextSpan =>
    rw [Conditional.check]
    refine (balanced_asValue _ (conditions _ (List.mem_cons_self ..))).bind fun type => ?_
    refine balanced_reportIf _ _ (Balanced.bind (Block.balanced_check ?_) fun first => ?_)
    · exact fun s inside => h s (List.mem_cons_of_mem _ (List.mem_append_left _ inside))
    · refine Balanced.bind (Conditional.balanced_check next nextSpan ?_ ?_)
        fun other => balanced_join _ _ _ _
      · exact fun e inside => conditions e (List.mem_cons_of_mem _ inside)
      · exact fun e inside => h e (List.mem_cons_of_mem _ (List.mem_append_right _ inside))

/-- The state in which a loop leaves the checker, before the nesting is taken back. -/
def Checker.afterLoop (vars : List Declaration) (body : Block) (c : Checker) : Checker :=
  let header := (Declaration.checkVariables [] vars).run c
  let after := (body.check.run header.2.opened).2.closed
  { after with scopes := after.scopes.restore (vars.map (·.name.name)) header.1 }

theorem Expr.check_loop (vars : List Declaration) (body : Block) (span : Span) :
    (Expr.loop vars body span).check = nested span fun c =>
      (.normal ((body.check.run
        ((Declaration.checkVariables [] vars).run c).2.opened).2.exitType.getD .none),
        c.afterLoop vars body) := by
  rw [Expr.check]
  rfl

theorem Expr.kept_afterLoop {vars : List Declaration} {body : Block}
    (initial : ∀ d ∈ vars, Balanced False d.value.check)
    (h : ∀ s ∈ body.statements, Balanced False s.check) (c : Checker) :
    Checker.Kept (vars = []) 0 c (c.afterLoop vars body) := by
  have header := Declaration.balanced_checkVariables [] initial c
  have block : Balanced False body.check := Block.balanced_check h
  have both := header.trans (balanced_consuming block _)
  refine ⟨both.depth, ?_, fun none => ?_, both.exits, both.errors⟩
  · rw [← both.outer]
    exact Scopes.outer_restore ..
  · subst none
    have same : (c.afterLoop [] body).scopes = c.scopes := Block.scopes_check h c.opened
    exact same ▸ .refl _

/-- Checking any expression is balanced, and without declarations in it the current frame gets
nothing but copies. -/
theorem Expr.balanced_check (e : Expr) : Balanced e.Quiet e.check := by
  induction e using Expr.childInduction with
  | step e ih =>
  have quietly : ∀ x ∈ e.children, Balanced e.Quiet x.check := fun x inside =>
    (ih x inside).mono fun quiet => quiet.child inside
  have anyhow : ∀ x ∈ e.children, Balanced False x.check := fun x inside =>
    (ih x inside).mono False.elim
  cases e with
  | literal => rw [Expr.check]; exact balanced_nested _ (balanced_pure _)
  | list items =>
    cases items with
    | nil => rw [Expr.check]; exact balanced_nested _ (balanced_pure _)
    | cons first rest =>
      rw [Expr.check]
      apply balanced_nested
      refine (balanced_asValue _ (quietly first (List.mem_cons_self ..))).bind fun element => ?_
      refine (Expr.balanced_checkItems element fun e inside => ?_).bind fun _ => balanced_pure _
      exact quietly e (List.mem_cons_of_mem _ inside)
  | map entries =>
    have parts : ∀ entry ∈ entries, Balanced (Expr.map entries _).Quiet entry.1.check ∧
        Balanced (Expr.map entries _).Quiet entry.2.check := fun entry inside =>
      ⟨quietly _ (List.mem_flatMap.2 ⟨entry, inside, by simp⟩),
        quietly _ (List.mem_flatMap.2 ⟨entry, inside, by simp⟩)⟩
    cases entries with
    | nil => rw [Expr.check]; exact balanced_nested _ (balanced_pure _)
    | cons entry rest =>
      obtain ⟨first, second⟩ := parts entry (List.mem_cons_self ..)
      obtain ⟨key, value⟩ := entry
      rw [Expr.check]
      apply balanced_nested
      refine (balanced_asValue _ first).bind fun keyType => ?_
      refine (balanced_asValue _ second).bind fun valueType => ?_
      refine (Expr.balanced_checkEntries _ _ fun e inside => ?_).bind fun _ => balanced_pure _
      exact parts e (List.mem_cons_of_mem _ inside)
  | name ident =>
    rw [Expr.check]
    exact balanced_nested _ ((balanced_lookup _).bind fun _ => balanced_pure _)
  | unary op operand =>
    rw [Expr.check]
    apply balanced_nested
    refine (balanced_asValue _ (quietly operand (by simp [children]))).bind fun type => ?_
    exact (balanced_settle _ _).bind fun _ => balanced_pure _
  | binary op lhs rhs =>
    rw [Expr.check]
    apply balanced_nested
    refine (balanced_asValue _ (quietly lhs (by simp [children]))).bind fun left => ?_
    refine (balanced_asValue _ (quietly rhs (by simp [children]))).bind fun right => ?_
    exact (balanced_settle _ _).bind fun _ => balanced_pure _
  | declare d =>
    rw [Expr.check]
    apply balanced_nested
    have declared : Balanced False d.check :=
      Declaration.balanced_check (anyhow _ (by simp [children]))
    exact (declared.bind fun _ => balanced_pure _).mono fun quiet => Bool.noConfusion quiet.self
  | assign target value =>
    rw [Expr.check]
    apply balanced_nested
    refine (balanced_asValue _ (quietly value (by simp [children]))).bind fun actual => ?_
    exact (balanced_assign _ _ _ _).bind fun _ => balanced_pure _
  | block body =>
    rw [Expr.check]
    exact balanced_nested _ (Block.balanced_check anyhow)
  | cond branches =>
    rw [Expr.check]
    apply balanced_nested
    exact Conditional.balanced_check branches _
      (fun e inside => quietly e (branches.conditions_subset inside)) anyhow
  | loop vars body =>
    rw [Expr.check_loop]
    apply balanced_nested
    have initial : ∀ d ∈ vars, Balanced False d.value.check := fun d inside =>
      anyhow _ (List.mem_append_left _ (List.mem_map_of_mem inside))
    have inside : ∀ s ∈ body.statements, Balanced False s.check := fun s inside =>
      anyhow s (List.mem_append_right _ inside)
    intro c
    refine (Expr.kept_afterLoop initial inside c).mono fun quiet => ?_
    cases vars with
    | nil => rfl
    | cons => simpa [declares] using quiet.self
  | exit kind value =>
    cases value with
    | none =>
      rw [Expr.check]
      exact balanced_nested _ ((balanced_recordExit _ _).bind fun _ => balanced_pure _)
    | some value =>
      rw [Expr.check]
      apply balanced_nested
      refine (balanced_asValue _ (quietly value (by simp [children]))).bind fun type => ?_
      exact (balanced_recordExit _ _).bind fun _ => balanced_pure _
  | call callee arguments =>
    rw [Expr.check]
    apply balanced_nested
    refine (Expr.balanced_checkArguments quietly).bind fun types => ?_
    cases Builtin.ofName? callee.name with
    | none => exact (balanced_report _ _).bind fun _ => balanced_pure _
    | some f => exact (balanced_settle _ _).bind fun _ => balanced_pure _

theorem Program.balanced_check (p : Program) :
    Balanced (∀ s ∈ p, Expr.Quiet s) (Program.check p) := by
  induction p with
  | nil => exact balanced_pure _
  | cons statement rest ih =>
    rw [Program.check]
    refine Balanced.bind ?_ fun _ => Balanced.bind ?_ fun _ => balanced_pure _
    · exact statement.balanced_check.mono fun quiet => quiet statement (List.mem_cons_self ..)
    · exact ih.mono fun quiet s inside => quiet s (List.mem_cons_of_mem _ inside)

section Anyhow

/-! What is balanced whatever is declared. -/

theorem Expr.anyhow_check (e : Expr) : Balanced False e.check :=
  e.balanced_check.anyhow

theorem Expr.anyhow_asValue (e : Expr) : Balanced False (asValue e.span e.check) :=
  balanced_asValue _ e.anyhow_check

theorem Expr.anyhow_checkItems (element : Ty) (items : List Expr) :
    Balanced False (Expr.checkItems element items) :=
  balanced_checkItems element fun e _ => e.anyhow_check

theorem Expr.anyhow_checkEntries (key value : Ty) (entries : List (Expr × Expr)) :
    Balanced False (Expr.checkEntries key value entries) :=
  balanced_checkEntries key value fun e _ => ⟨e.1.anyhow_check, e.2.anyhow_check⟩

theorem Expr.anyhow_checkArguments (arguments : List Expr) :
    Balanced False (Expr.checkArguments arguments) :=
  balanced_checkArguments fun e _ => e.anyhow_check

theorem Declaration.anyhow_check (d : Declaration) : Balanced False d.check :=
  balanced_check d.value.anyhow_check

theorem Declaration.anyhow_checkVariables (earlier : List String) (vars : List Declaration) :
    Balanced False (Declaration.checkVariables earlier vars) :=
  balanced_checkVariables earlier fun d _ => d.value.anyhow_check

theorem Block.anyhow_check (body : Block) : Balanced quiet body.check :=
  balanced_check fun s _ => s.anyhow_check

theorem Conditional.anyhow_check (branches : Conditional) (span : Span) :
    Balanced False (branches.check span) :=
  branches.balanced_check span (fun e _ => e.anyhow_check) fun e _ => e.anyhow_check

theorem Program.anyhow_check (p : Program) : Balanced False (Program.check p) :=
  (Program.balanced_check p).anyhow

/-- Statements with a certain exit among them leave the block once. -/
theorem Expr.kept_checkStatements_found {statements : List Expr} {c : Checker} {exit : Control Ty}
    (found : ((Expr.checkStatements none statements).run c).1 = some exit) :
    Checker.Kept False 1 c ((Expr.checkStatements none statements).run c).2 := by
  have kept := Expr.kept_checkStatements (fun s (_ : s ∈ statements) => s.anyhow_check) none c
  rwa [found, if_pos ⟨rfl, Option.some_ne_none exit⟩] at kept

end Anyhow

end ExprLang
