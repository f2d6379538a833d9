import ExprLang.Proofs.CheckerBalance

set_option autoImplicit false

/-!
Exits as the checker sees them. An expression that it takes for a certain exit has its type on
record with the innermost consumer, and what is on record stays.
-/

namespace ExprLang

namespace Checker

/-- No complaint so far. -/
def Clean (c : Checker) : Prop :=
  c.errors = #[]

/-- The current statement can be reached, as far as the innermost consumer goes. -/
def Live (c : Checker) : Prop :=
  ∀ frame ∈ c.exits.head?, frame.unreachable = 0

/-- The innermost consumer, if there is one, is left with values of the type. -/
def Records (c : Checker) (t : Ty) : Prop :=
  ∀ frame ∈ c.exits.head?, frame.type = some t

variable {quiet : Prop} {k : Nat} {c c' : Checker}

theorem clean_iff : c.Clean ↔ c.hasErrors = false := by
  simp [Clean, hasErrors]

theorem Kept.clean (h : c.Kept quiet k c') (clean : c'.Clean) : c.Clean := by
  have before := h.errors
  rw [show c'.errors = #[] from clean] at before
  exact Array.toList_eq_nil_iff.1 (List.prefix_nil.1 before)

theorem not_clean_noted (c : Checker) (cause : TypeError) (span : Span) :
    ¬ (c.noted cause span).Clean := by
  simp [Clean, noted]

theorem clean_notedIf {reason : Prop} [Decidable reason] {cause : TypeError} {span : Span}
    (clean : (c.notedIf reason cause span).Clean) :
    ¬ reason ∧ c.notedIf reason cause span = c := by
  unfold notedIf at *
  split at clean
  next => exact absurd clean (c.not_clean_noted cause span)
  next none => exact ⟨none, if_neg none⟩

theorem live_opened (c : Checker) : c.opened.Live := by
  intro frame inside
  cases inside
  rfl

theorem Kept.live (h : c.Kept quiet 0 c') (live : c.Live) : c'.Live := by
  have exits := h.exits
  unfold Live at *
  generalize c.exits = before at *
  generalize c'.exits = after at *
  cases exits with
  | top => exact live
  | inner unreachable _ =>
    have here := live _ rfl
    intro frame inside
    cases inside
    omega

theorem Kept.records {t : Ty} (h : c.Kept quiet k c') (records : c.Records t) : c'.Records t := by
  have exits := h.exits
  unfold Records at *
  generalize c.exits = before at *
  generalize c'.exits = after at *
  cases exits with
  | top => exact records
  | inner _ type =>
    have here := type t (records _ rfl)
    intro frame inside
    cases inside
    exact here

theorem Kept.live_closed (h : c.opened.Kept quiet k c') (live : c.Live) : c'.closed.Live := by
  have same : c'.closed.exits = c.exits := h.exits.tail
  unfold Live
  rwa [same]

/-- Inside a consumer something is on record as soon as it could be. -/
theorem Kept.exitType_of_records {t : Ty} (h : c.opened.Kept quiet k c') (records : c'.Records t) :
    c'.exitType = some t := by
  have exits := h.exits
  unfold Records exitType at *
  generalize c'.exits = after at *
  cases exits with
  | inner => exact records _ rfl

end Checker

namespace CheckM

theorem settle_of_clean {verdict : Verdict} {span : Span} {c : Checker}
    (clean : ((settle verdict span).run c).2.Clean) :
    verdict.complaint = none ∧ (settle verdict span).run c = (verdict.type, c) := by
  rw [run_settle] at clean ⊢
  cases complaint : verdict.complaint with
  | none => exact ⟨rfl, rfl⟩
  | some cause =>
    rw [complaint] at clean
    exact absurd clean (c.not_clean_noted cause span)

theorem lookup_of_clean {ident : Ident} {c : Checker} (clean : ((lookup ident).run c).2.Clean) :
    ∃ entry frame, c.scopes.find? ident.name = some (entry, frame) ∧
      (lookup ident).run c = (entry.payload, c) := by
  rw [run_lookup] at clean ⊢
  cases found : c.scopes.find? ident.name with
  | none =>
    rw [found] at clean
    exact absurd clean (c.not_clean_noted _ _)
  | some bound => exact ⟨bound.1, bound.2, rfl, rfl⟩

theorem assign_of_clean {target : Ident} {actual : Ty} {site : Unit → String} {span : Span}
    {c : Checker} (clean : ((assign target actual site span).run c).2.Clean) :
    ∃ entry frame, c.scopes.find? target.name = some (entry, frame) ∧ entry.isConst = false ∧
      actual = entry.payload ∧
      (assign target actual site span).run c =
        (entry.payload, c.copying target.name entry frame) := by
  match found : c.scopes.find? target.name with
  | none =>
    rw [run_assign_unbound found] at clean
    exact absurd clean (c.not_clean_noted _ _)
  | some (entry, frame) =>
    rw [run_assign_bound found] at clean ⊢
    rw [Checker.Clean, Checker.errors_copying] at clean
    obtain ⟨same, eq⟩ := Checker.clean_notedIf clean
    rw [eq] at clean ⊢
    obtain ⟨writable, eq'⟩ := Checker.clean_notedIf clean
    rw [eq']
    exact ⟨entry, frame, rfl, by simpa using writable, Decidable.not_not.1 same, rfl⟩

/-- Without a complaint about it, an expression whose value is used has one type, whichever way it
is left. -/
theorem asValue_of_clean {span : Span} {node : CheckM (Control Ty)} {c : Checker}
    (clean : ((asValue span node).run c).2.Clean) :
    (asValue span node).run c = ((node.run c.opened).1.value, (node.run c.opened).2.closed) ∧
      ∀ type exit, (node.run c.opened).1 = .normal type →
        (node.run c.opened).2.exitType = some exit → type = exit := by
  rw [run_asValue] at clean ⊢
  generalize (node.run c.opened).1 = result at *
  generalize (node.run c.opened).2.exitType = exit? at *
  split at clean
  next type exit =>
    obtain ⟨same, eq⟩ := Checker.clean_notedIf clean
    obtain rfl := Decidable.not_not.1 same
    simp only [eq]
    refine ⟨rfl, fun type' exit' ht he => ?_⟩
    cases ht
    cases he
    rfl
  next other => exact ⟨rfl, fun type exit ht he => absurd he (other type exit ht)⟩

/-- An exit that can be reached goes on record. -/
theorem records_recordExit {c : Checker} (live : c.Live) (type : Ty) (span : Span)
    (clean : ((recordExit type span).run c).2.Clean) :
    ((recordExit type span).run c).2.Records type := by
  match exits : c.exits with
  | [] =>
    rw [run_recordExit_top exits]
    intro frame inside
    rw [exits] at inside
    cases inside
  | frame :: frames =>
    have reached : frame.unreachable = 0 := live frame (by rw [exits]; rfl)
    cases seen : frame.type with
    | none =>
      rw [run_recordExit_first exits reached seen]
      intro frame inside
      cases inside
      rfl
    | some expected =>
      rw [run_recordExit_again exits reached seen] at clean ⊢
      obtain ⟨same, eq⟩ := Checker.clean_notedIf clean
      rw [eq]
      intro frame' inside
      rw [exits] at inside
      cases inside
      rw [seen, Decidable.not_not.1 same]

theorem errors_updateUnreachable (f : Nat → Nat) (c : Checker) :
    ((updateUnreachable f).run c).2.errors = c.errors := by
  match exits : c.exits with
  | [] => rw [run_updateUnreachable_top exits]
  | frame :: frames => rw [run_updateUnreachable_inner exits]

theorem records_updateUnreachable {c : Checker} {t : Ty} (f : Nat → Nat) (records : c.Records t) :
    ((updateUnreachable f).run c).2.Records t := by
  match exits : c.exits with
  | [] => rwa [run_updateUnreachable_top exits]
  | frame :: frames =>
    rw [run_updateUnreachable_inner exits]
    intro frame' inside
    cases inside
    exact records frame (by rw [exits]; rfl)

end CheckM

open CheckM

/-- Wherever a clean check takes the expression for a certain exit, its type is on record. -/
def Expr.Recorded (e : Expr) : Prop :=
  ∀ c : Checker, c.Live → (e.check.run c).2.Clean → (e.check.run c).1.isSignal = true →
    (e.check.run c).2.Records (e.check.run c).1.value

theorem Expr.kept_checkStatements_some (exit : Control Ty) (statements : List Expr) (c : Checker) :
    Checker.Kept False 0 c ((Expr.checkStatements (some exit) statements).run c).2 := by
  have kept :=
    Expr.kept_checkStatements (fun s (_ : s ∈ statements) => s.anyhow_check) (some exit) c
  rwa [if_neg fun both => by cases both.1] at kept

/-- The certain exit that statements are left by is a signal, and on record. -/
theorem Expr.records_checkStatements {statements : List Expr} (h : ∀ s ∈ statements, s.Recorded)
    {c : Checker} {exit : Control Ty}
    (found : ((Expr.checkStatements none statements).run c).1 = some exit) :
    exit.isSignal = true ∧ (c.Live → ((Expr.checkStatements none statements).run c).2.Clean →
      ((Expr.checkStatements none statements).run c).2.Records exit.value) := by
  induction statements generalizing c with
  | nil => cases found
  | cons statement rest ih =>
    have first := h statement (List.mem_cons_self ..) c
    rw [Expr.checkStatements, run_bind] at *
    by_cases certain : (none : Option (Control Ty)).isNone && (statement.check.run c).1.isSignal
    · rw [if_pos certain, run_bind] at *
      rw [Expr.checkStatements_some] at found
      obtain rfl := Option.some.inj found
      refine ⟨certain, fun live clean => ?_⟩
      have up : Checker.Kept False 1 (statement.check.run c).2 _ := kept_updateUnreachable_up _
      have after := up.trans (Expr.kept_checkStatements_some (statement.check.run c).1 rest _)
      exact after.records (first live (after.clean clean) certain)
    · rw [if_neg certain] at *
      obtain ⟨signal, recorded⟩ := ih (fun s inside => h s (List.mem_cons_of_mem _ inside)) found
      exact ⟨signal, fun live => recorded ((statement.anyhow_check c).live live)⟩

theorem Block.run_check_none {body : Block} {c : Checker}
    (none : ((Expr.checkStatements none body.statements).run c.entered).1 = none) :
    body.check.run c =
      (.normal .none, ((Expr.checkStatements .none body.statements).run c.entered).2.left) := by
  rw [Block.check_eq, run_inScope, run_bind, none]
  rfl

theorem Block.run_check_some {body : Block} {c : Checker} {exit : Control Ty}
    (found : ((Expr.checkStatements none body.statements).run c.entered).1 = some exit) :
    body.check.run c = (exit, ((updateUnreachable (· - 1)).run
      ((Expr.checkStatements none body.statements).run c.entered).2).2.left) := by
  rw [Block.check_eq, run_inScope, run_bind, found]
  rfl

/-- A block is left as its statements are, with the errors and the exits that they have added. -/
theorem Block.check_inside (body : Block) (c : Checker) :
    (body.check.run c).1 =
        ((Expr.checkStatements none body.statements).run c.entered).1.getD (.normal .none) ∧
      (body.check.run c).2.errors =
        ((Expr.checkStatements none body.statements).run c.entered).2.errors ∧
      ∀ t, ((Expr.checkStatements none body.statements).run c.entered).2.Records t →
        (body.check.run c).2.Records t := by
  cases exit : ((Expr.checkStatements none body.statements).run c.entered).1 with
  | none =>
    rw [Block.run_check_none exit]
    exact ⟨rfl, rfl, fun _ records => records⟩
  | some exit' =>
    rw [Block.run_check_some exit]
    exact ⟨rfl, errors_updateUnreachable _ _, fun _ => records_updateUnreachable _⟩

theorem Block.records_check {body : Block} (h : ∀ s ∈ body.statements, s.Recorded) {c : Checker}
    (live : c.Live) (clean : (body.check.run c).2.Clean)
    (signal : (body.check.run c).1.isSignal = true) :
    (body.check.run c).2.Records (body.check.run c).1.value := by
  obtain ⟨result, errors, records⟩ := Block.check_inside body c
  rw [result] at signal ⊢
  cases found : ((Expr.checkStatements none body.statements).run c.entered).1 with
  | none =>
    rw [found] at signal
    cases signal
  | some exit =>
    obtain ⟨-, recorded⟩ := Expr.records_checkStatements h found
    exact records _ (recorded live (errors.symm.trans clean))

/-- Two branches are left by a certain exit only if both are; the first has it on record. -/
theorem Block.records_join {body : Block} (h : ∀ s ∈ body.statements, s.Recorded)
    {other : CheckM (Control Ty)} (balanced : Balanced False other) (compare : Bool) (span : Span)
    {c : Checker} (live : c.Live) {joined : CheckM (Control Ty)}
    (eq : joined = do join (← body.check) (← other) compare span)
    (clean : (joined.run c).2.Clean) (signal : (joined.run c).1.isSignal = true) :
    (joined.run c).2.Records (joined.run c).1.value := by
  subst eq
  have after := (balanced (body.check.run c).2).trans
    (balanced_join (body.check.run c).1 (other.run (body.check.run c).2).1 compare span _)
  rw [run_bind, run_bind] at *
  rw [run_join] at signal after clean ⊢
  by_cases both : (body.check.run c).1.isSignal && (other.run (body.check.run c).2).1.isSignal
  · rw [if_pos both]
    exact after.records
      (Block.records_check h live (after.clean clean) (Bool.and_eq_true_iff.1 both).1)
  · rw [if_neg both] at signal
    cases signal

/-- A conditional is left by a certain exit only if all its branches are. -/
theorem Conditional.records_check (branches : Conditional) (span : Span)
    (h : ∀ e ∈ branches.children, e.Recorded) {c : Checker} (live : c.Live)
    (clean : ((branches.check span).run c).2.Clean)
    (signal : ((branches.check span).run c).1.isSignal = true) :
    ((branches.check span).run c).2.Records ((branches.check span).run c).1.value := by
  cases branches with
  | only condition body =>
    rw [Conditional.check, run_bind, run_complainIf, run_bind] at signal
    cases signal
  | withElse condition body otherwise =>
    have before := condition.anyhow_asValue c
    rw [Conditional.check, run_bind, run_complainIf] at *
    refine Block.records_join (fun s inside => h s ?_) otherwise.anyhow_check _ _ ?_ rfl clean
      signal
    · exact List.mem_cons_of_mem _ (List.mem_append_left _ inside)
    · exact (before.trans (.notedIf ..)).live live
  | withElseIf condition body next nextSpan =>
    have before := condition.anyhow_asValue c
    have others := next.anyhow_check nextSpan
    rw [Conditional.check, run_bind, run_complainIf] at *
    refine Block.records_join (fun s inside => h s ?_) others _ _ ?_ rfl clean signal
    · exact List.mem_cons_of_mem _ (List.mem_append_left _ inside)
    · exact (before.trans (.notedIf ..)).live live

/-- It is enough to look one level further in. -/
theorem Expr.Recorded.of_nested {e : Expr} {span : Span} {node : CheckM (Control Ty)}
    (eq : e.check = Bookkeeping.nested span node)
    (h : ∀ c : Checker, c.Live → (node.run c).2.Clean → (node.run c).1.isSignal = true →
      (node.run c).2.Records (node.run c).1.value) : e.Recorded := by
  intro c live clean signal
  have checked : e.check = nested span node := eq
  rw [checked, run_nested] at clean signal ⊢
  split at signal
  next => cases signal
  next deep =>
    rw [if_neg deep] at *
    exact h c.deeper live clean signal

/-- Most expressions are never taken for exits. -/
theorem Expr.Recorded.of_normal {e : Expr} {span : Span} {node : CheckM (Control Ty)}
    (eq : e.check = Bookkeeping.nested span node) (h : ∀ c, (node.run c).1.isSignal = false) :
    e.Recorded := by
  refine .of_nested eq fun c _ _ signal => ?_
  rw [h c] at signal
  cases signal

theorem Expr.recorded (e : Expr) : e.Recorded := by
  induction e using Expr.childInduction with
  | step e ih =>
  cases e with
  | literal => exact .of_normal (by rw [Expr.check]) fun _ => rfl
  | list items =>
    cases items with
    | nil => exact .of_normal (by rw [Expr.check]) fun _ => rfl
    | cons => exact .of_normal (by rw [Expr.check]) fun _ => rfl
  | map entries =>
    cases entries with
    | nil => exact .of_normal (by rw [Expr.check]) fun _ => rfl
    | cons => exact .of_normal (by rw [Expr.check]) fun _ => rfl
  | name => exact .of_normal (by rw [Expr.check]) fun _ => rfl
  | unary => exact .of_normal (by rw [Expr.check]) fun _ => rfl
  | binary => exact .of_normal (by rw [Expr.check]) fun _ => rfl
  | declare => exact .of_normal (by rw [Expr.check]) fun _ => rfl
  | assign => exact .of_normal (by rw [Expr.check]) fun _ => rfl
  | loop => exact .of_normal (by rw [Expr.check]) fun _ => rfl
  | call callee =>
    refine .of_normal (by rw [Expr.check]) fun c => ?_
    rw [run_bind]
    cases Builtin.ofName? callee.name <;> rfl
  | block body =>
    refine .of_nested (by rw [Expr.check]) fun c live clean signal => ?_
    exact Block.records_check ih live clean signal
  | cond branches =>
    refine .of_nested (by rw [Expr.check]) fun c live clean signal => ?_
    exact Conditional.records_check branches _ ih live clean signal
  | exit kind value =>
    cases value with
    | none =>
      refine .of_nested (by rw [Expr.check]) fun c live clean _ => ?_
      rw [run_bind] at *
      cases kind <;> exact records_recordExit live _ _ clean
    | some value =>
      refine .of_nested (by rw [Expr.check]) fun c live clean _ => ?_
      have before := value.anyhow_asValue c
      rw [run_bind, run_bind] at *
      cases kind <;> exact records_recordExit (before.live live) _ _ clean

end ExprLang
