import ExprLang.Proofs.CheckerParts
import ExprLang.Proofs.CheckerRules
import ExprLang.Proofs.ParallelChecks

set_option autoImplicit false

/-!
Statements after a certain exit. The checker goes through them like through any others, but as far
as the consumer around the block is concerned they might as well not be there: the block is left in
the same way, the same exits are on record, and the complaints about them are those that they would
give in a program of their own.
-/

namespace ExprLang

open CheckM

namespace Checker

/-- The same checker with further consumers around those that are open. -/
def within (c : Checker) (outer : List ExitFrame) : Checker :=
  { c with exits := c.exits ++ outer }

/-- The same checker at the top level, where exits reach no consumer. -/
def outside (c : Checker) : Checker :=
  { c with exits := [] }

/-- The left checker has some more consumers around it than the right one, and for the innermost of
those the current statement is never reached. -/
def Unheard (type : Option Ty) (frames : List ExitFrame) (c d : Checker) : Prop :=
  ∃ n, 0 < n ∧ c = d.within (⟨type, n⟩ :: frames)

theorem within_notedIf (c : Checker) (outer : List ExitFrame) (reason : Prop) [Decidable reason]
    (cause : TypeError) (span : Span) :
    (c.within outer).notedIf reason cause span = (c.notedIf reason cause span).within outer := by
  unfold notedIf
  split <;> rfl

theorem within_copying (c : Checker) (outer : List ExitFrame) (name : String) (entry : Entry Ty)
    (frame : Nat) :
    (c.within outer).copying name entry frame = (c.copying name entry frame).within outer := by
  show (if c.copyAssigned ∧ frame ≠ c.scopes.depth then _ else _) = _
  unfold copying
  split <;> rfl

theorem exitType_within {c : Checker} (inner : c.exits ≠ []) (outer : List ExitFrame) :
    (c.within outer).exitType = c.exitType := by
  unfold exitType within
  cases exits : c.exits with
  | nil => exact absurd exits inner
  | cons => rfl

theorem closed_within {c : Checker} (inner : c.exits ≠ []) (outer : List ExitFrame) :
    (c.within outer).closed = c.closed.within outer := by
  unfold closed within
  cases exits : c.exits with
  | nil => exact absurd exits inner
  | cons => rfl

end Checker

theorem ExitFrame.Kept.eq_nil {k : Nat} {f : List ExitFrame} (h : ExitFrame.Kept k f []) :
    f = [] := by
  cases h
  rfl

theorem ExitFrame.Kept.top_eq {k : Nat} {g : List ExitFrame} (h : ExitFrame.Kept k [] g) :
    g = [] := by
  cases h
  rfl

theorem ExitFrame.Kept.unreachable_eq {k n m : Nat} {s t : Option Ty} {f g : List ExitFrame}
    (h : ExitFrame.Kept k (⟨s, n⟩ :: f) (⟨t, m⟩ :: g)) : m = n + k := by
  cases h
  assumption

namespace CheckM

variable {α : Type} {type : Option Ty} {frames : List ExitFrame}

/-- A check for which consumers that are not reached make no difference. -/
def Deaf (type : Option Ty) (frames : List ExitFrame) {α : Type} (x : CheckM α) : Prop :=
  Parallel (Checker.Unheard type frames) x x

theorem deaf_report (cause : TypeError) (span : Span) : Deaf type frames (report cause span) := by
  rintro c d ⟨n, dead, rfl⟩
  exact ⟨rfl, n, dead, rfl⟩

theorem deaf_nested (span : Span) {node : CheckM (Control Ty)} (h : Deaf type frames node) :
    Deaf type frames (nested span node) := by
  rintro c d ⟨n, dead, rfl⟩
  have depth : (d.within (⟨type, n⟩ :: frames)).depth = d.depth := rfl
  rw [run_nested, run_nested, depth]
  split
  · exact ⟨rfl, n, dead, rfl⟩
  · obtain ⟨same, m, dead, eq⟩ := h _ d.deeper ⟨n, dead, rfl⟩
    exact ⟨same, m, dead, congrArg Checker.shallower eq⟩

/-- A consumer that is opened in code that is never reached hears the exits in it. -/
theorem deaf_consuming {node : CheckM α} (balanced : Balanced False node)
    (h : Deaf type frames node) : Deaf type frames (consuming node) := by
  rintro c d ⟨n, dead, rfl⟩
  obtain ⟨same, m, dead, eq⟩ := h _ d.opened ⟨n, dead, rfl⟩
  have inner : (node.run d.opened).2.exits ≠ [] := (balanced d.opened).exits.ne_nil
  refine ⟨Prod.ext same ?_, m, dead, ?_⟩
  · exact (Checker.exitType_within inner _).symm.trans (congrArg Checker.exitType eq.symm)
  · exact (congrArg Checker.closed eq).trans (Checker.closed_within inner _)

theorem deaf_recordExit (exit : Ty) (span : Span) : Deaf type frames (recordExit exit span) := by
  rintro c d ⟨n, dead, rfl⟩
  cases exits : d.exits with
  | nil =>
    have outer : (d.within (⟨type, n⟩ :: frames)).exits = ⟨type, n⟩ :: frames := by
      rw [Checker.within, exits, List.nil_append]
    rw [run_recordExit_top exits, run_recordExit_unreachable outer (Nat.ne_of_gt dead)]
    exact ⟨rfl, n, dead, rfl⟩
  | cons frame inner =>
    have outer : (d.within (⟨type, n⟩ :: frames)).exits =
        frame :: (inner ++ ⟨type, n⟩ :: frames) := by
      rw [Checker.within, exits, List.cons_append]
    by_cases live : frame.unreachable = 0
    · cases seen : frame.type with
      | none =>
        rw [run_recordExit_first exits live seen, run_recordExit_first outer live seen]
        exact ⟨rfl, n, dead, rfl⟩
      | some expected =>
        rw [run_recordExit_again exits live seen, run_recordExit_again outer live seen]
        exact ⟨rfl, n, dead, d.within_notedIf ..⟩
    · rw [run_recordExit_unreachable exits live, run_recordExit_unreachable outer live]
      exact ⟨rfl, n, dead, rfl⟩

theorem deaf_leave : Deaf type frames (updateUnreachable (· + 1)) := by
  rintro c d ⟨n, dead, rfl⟩
  cases exits : d.exits with
  | nil =>
    have outer : (d.within (⟨type, n⟩ :: frames)).exits = ⟨type, n⟩ :: frames := by
      rw [Checker.within, exits, List.nil_append]
    rw [run_updateUnreachable_top exits, run_updateUnreachable_inner outer]
    refine ⟨rfl, n + 1, Nat.succ_pos n, ?_⟩
    rw [Checker.within, Checker.within, exits]
    rfl
  | cons frame inner =>
    have outer : (d.within (⟨type, n⟩ :: frames)).exits =
        frame :: (inner ++ ⟨type, n⟩ :: frames) := by
      rw [Checker.within, exits, List.cons_append]
    rw [run_updateUnreachable_inner exits, run_updateUnreachable_inner outer]
    exact ⟨rfl, n, dead, rfl⟩

theorem deaf_lookup (ident : Ident) : Deaf type frames (lookup ident) := by
  rintro c d ⟨n, dead, rfl⟩
  have scopes : (d.within (⟨type, n⟩ :: frames)).scopes = d.scopes := rfl
  rw [run_lookup, run_lookup, scopes]
  split
  · exact ⟨rfl, n, dead, rfl⟩
  · exact ⟨rfl, n, dead, rfl⟩

theorem deaf_assign (target : Ident) (actual : Ty) (site : Unit → String) (span : Span) :
    Deaf type frames (assign target actual site span) := by
  rintro c d ⟨n, dead, rfl⟩
  cases found : d.scopes.find? target.name with
  | none =>
    have found' : (d.within (⟨type, n⟩ :: frames)).scopes.find? target.name = none := found
    rw [run_assign_unbound found, run_assign_unbound found']
    exact ⟨rfl, n, dead, rfl⟩
  | some bound =>
    obtain ⟨entry, frame⟩ := bound
    have found' : (d.within (⟨type, n⟩ :: frames)).scopes.find? target.name =
        some (entry, frame) := found
    rw [run_assign_bound found, run_assign_bound found']
    refine ⟨rfl, n, dead, ?_⟩
    rw [Checker.within_notedIf, Checker.within_notedIf, Checker.within_copying]

/-- A block that is left before its end counts as left while the rest of it is checked; after that
the count is what it was, so that code which was never reached before is not reached now. -/
theorem deaf_block {body : Block}
    (h : Deaf type frames (Expr.checkStatements none body.statements)) :
    Deaf type frames body.check := by
  rintro c d ⟨n, dead, rfl⟩
  have entered : (d.within (⟨type, n⟩ :: frames)).entered =
      d.entered.within (⟨type, n⟩ :: frames) := rfl
  obtain ⟨same, m, dead', eq⟩ := h _ d.entered ⟨n, dead, entered⟩
  cases found : ((Expr.checkStatements none body.statements).run d.entered).1 with
  | none =>
    rw [Block.run_check_none found, Block.run_check_none (same.symm.trans found)]
    exact ⟨rfl, m, dead', congrArg Checker.left eq⟩
  | some exit =>
    have found' := same.symm.trans found
    have left := (Expr.kept_checkStatements_found found').exits
    have right := (Expr.kept_checkStatements_found found).exits
    rw [Block.run_check_some found, Block.run_check_some found', eq]
    rw [eq] at left
    generalize ((Expr.checkStatements none body.statements).run d.entered).2 = d' at left right
    -- What counts the exit is a consumer that both sides have, or the one that only one side has.
    cases exits : d'.exits with
    | nil =>
      rw [exits] at right
      have top : d.exits = [] := right.eq_nil
      have outer : (d'.within (⟨type, m⟩ :: frames)).exits = ⟨type, m⟩ :: frames := by
        rw [Checker.within, exits, List.nil_append]
      have count : m = n + 1 := by
        rw [outer, entered, Checker.within, show d.entered.exits = [] from top] at left
        exact left.unreachable_eq
      rw [run_updateUnreachable_top exits, run_updateUnreachable_inner outer]
      refine ⟨rfl, m - 1, by omega, ?_⟩
      simp only [Checker.left, Checker.within, exits]
      rfl
    | cons frame inner =>
      have outer : (d'.within (⟨type, m⟩ :: frames)).exits =
          frame :: (inner ++ ⟨type, m⟩ :: frames) := by
        rw [Checker.within, exits, List.cons_append]
      rw [run_updateUnreachable_inner exits, run_updateUnreachable_inner outer]
      exact ⟨rfl, m, dead', rfl⟩

theorem rules_deaf : Rules (fun _ => True) (Deaf type frames) where
  pure := parallel_pure
  bind := Parallel.bind
  report cause span _ := deaf_report cause span
  nested _ h := deaf_nested _ h
  consuming := deaf_consuming
  recordExit exit span _ := deaf_recordExit exit span
  lookup _ := deaf_lookup _
  assign actual site span _ _ := deaf_assign _ actual site span
  setAside name := by
    rintro c d ⟨n, dead, rfl⟩
    exact ⟨rfl, n, dead, rfl⟩
  rescope f := by
    rintro c d ⟨n, dead, rfl⟩
    exact ⟨rfl, n, dead, rfl⟩
  leave := deaf_leave
  block := deaf_block

theorem exits_updateUnreachable (f : Nat → Nat) (c : Checker) :
    ((updateUnreachable f).run c).2.exits =
      c.exits.modifyHead fun frame => { frame with unreachable := f frame.unreachable } := by
  cases exits : c.exits with
  | nil => rw [run_updateUnreachable_top exits, exits]; rfl
  | cons frame frames => rw [run_updateUnreachable_inner exits]; rfl

theorem outside_updateUnreachable (f : Nat → Nat) (c : Checker) :
    ((updateUnreachable f).run c).2.outside = c.outside := by
  cases exits : c.exits with
  | nil => rw [run_updateUnreachable_top exits]
  | cons frame frames => rw [run_updateUnreachable_inner exits]; rfl

end CheckM

/-! ### Programs as dead code -/

namespace Program

theorem deaf_check (p : Program) (type : Option Ty) (frames : List ExitFrame) :
    Deaf type frames (Program.check p) :=
  Program.obeys_check rules_deaf fun _ _ => .of_forall fun _ _ _ => trivial

/-- After a certain exit, statements are checked as in a program. -/
theorem run_checkStatements_some (exit : Control Ty) (p : Program) (c : Checker) :
    ((Expr.checkStatements (some exit) p).run c).2 = ((Program.check p).run c).2 := by
  induction p generalizing c with
  | nil => rfl
  | cons statement rest ih =>
    rw [Expr.checkStatements, Program.check, run_bind, run_bind, run_bind, run_pure]
    exact ih _

/-- In code that is never reached, a program leaves the consumers as they are, and complains as it
does at the top level. -/
theorem check_unreached {c : Checker} (dead : ∀ frame ∈ c.exits.head?, 0 < frame.unreachable)
    (p : Program) :
    ((Program.check p).run c).2.exits = c.exits ∧
      ((Program.check p).run c).2.errors = ((Program.check p).run c.outside).2.errors := by
  have left := (Program.anyhow_check p c).exits
  have top : ((Program.check p).run c.outside).2.exits = [] :=
    (Program.anyhow_check p c.outside).exits.top_eq
  cases exits : c.exits with
  | nil =>
    have same : c.outside = c := by rw [Checker.outside, ← exits]
    rw [same] at top ⊢
    exact ⟨top, rfl⟩
  | cons frame frames =>
    obtain ⟨type, n⟩ := frame
    have within : c = c.outside.within (⟨type, n⟩ :: frames) := by
      rw [Checker.within, Checker.outside, List.nil_append, ← exits]
    have reached : 0 < n := dead ⟨type, n⟩ (by rw [exits]; rfl)
    obtain ⟨-, m, -, after⟩ := Program.deaf_check p type frames c c.outside ⟨n, reached, within⟩
    have exits' : ((Program.check p).run c).2.exits = ⟨type, m⟩ :: frames := by
      rw [after, Checker.within, top, List.nil_append]
    rw [exits, exits'] at left
    have count : m = n := left.unreachable_eq
    refine ⟨?_, ?_⟩
    · rw [exits', count]
    · rw [after]
      rfl

end Program

/-- From the given state of the checker, a block is left for certain by this statement and by none
of the statements before it. -/
structure Checker.FirstExit (c : Checker) (front : List Expr) (s : Expr) : Prop where
  before : ((Expr.checkStatements none front).run c.entered).1 = none
  here : (s.check.run ((Expr.checkStatements none front).run c.entered).2).1.isSignal = true

/-- The state in which the statement leaves the checker. -/
def Checker.afterExit (c : Checker) (front : List Expr) (s : Expr) : Checker :=
  (s.check.run ((Expr.checkStatements none front).run c.entered).2).2

namespace Checker.FirstExit

variable {c : Checker} {front : List Expr} {s : Expr}

/-- The certain exit is noted, and what follows is checked like a program. -/
theorem run_checkStatements (h : c.FirstExit front s) (dead : List Expr) :
    ((Expr.checkStatements none (front ++ s :: dead)).run c.entered).1 =
        some (s.check.run ((Expr.checkStatements none front).run c.entered).2).1 ∧
      ((Expr.checkStatements none (front ++ s :: dead)).run c.entered).2 =
        ((Program.check dead).run ((updateUnreachable (· + 1)).run (c.afterExit front s)).2).2 := by
  have certain : ((none : Option (Control Ty)).isNone &&
      (s.check.run ((Expr.checkStatements none front).run c.entered).2).1.isSignal) = true := h.here
  rw [Expr.checkStatements_append, h.before, Expr.checkStatements, run_bind, if_pos certain,
    run_bind]
  exact ⟨Expr.checkStatements_some _ _ _, Program.run_checkStatements_some _ _ _⟩

/-- After the certain exit, nothing is reached. -/
theorem unreached (c : Checker) :
    ∀ frame ∈ ((updateUnreachable (· + 1)).run c).2.exits.head?, 0 < frame.unreachable := by
  rw [exits_updateUnreachable]
  intro frame inside
  cases exits : c.exits with
  | nil =>
    rw [exits] at inside
    cases inside
  | cons first frames =>
    rw [exits] at inside
    cases inside
    exact Nat.succ_pos _

/-- Whatever follows the certain exit, the block is left by it, with the exits that were on
record. -/
theorem check_block (h : c.FirstExit front s) (dead : List Expr) (span : Span) :
    ((Block.mk (front ++ s :: dead) span).check.run c).1 =
        (s.check.run ((Expr.checkStatements none front).run c.entered).2).1 ∧
      ((Block.mk (front ++ s :: dead) span).check.run c).2.exits = (c.afterExit front s).exits ∧
      ((Block.mk (front ++ s :: dead) span).check.run c).2.errors =
        ((Program.check dead).run (c.afterExit front s).outside).2.errors := by
  obtain ⟨exit, state⟩ := h.run_checkStatements dead
  obtain ⟨exits, errors⟩ := Program.check_unreached (unreached (c.afterExit front s)) dead
  have found : ((Expr.checkStatements none
    (Block.mk (front ++ s :: dead) span).statements).run c.entered).1 = some _ := exit
  have statements : (Block.mk (front ++ s :: dead) span).statements = front ++ s :: dead := rfl
  rw [Block.run_check_some found, statements, state]
  refine ⟨rfl, ?_, ?_⟩
  · show ((updateUnreachable (· - 1)).run _).2.exits = _
    rw [exits_updateUnreachable, exits, exits_updateUnreachable, List.modifyHead_modifyHead]
    exact congrFun List.modifyHead_id _
  · show ((updateUnreachable (· - 1)).run _).2.errors = _
    rw [errors_updateUnreachable, errors, outside_updateUnreachable]

end Checker.FirstExit

/-- A block that goes on after its first certain exit is left like the block that ends there: in the
same way, and with the same exits on record and the same count of blocks left for the consumers
around it. All that the rest can add are errors, and these are the ones that it gives as a program
at the top level, where no exit in it is held against a consumer outside. -/
theorem dead_code_is_inert {c : Checker} {front : List Expr} {s : Expr}
    (exits : c.FirstExit front s) (dead : List Expr) (span span' : Span) :
    let whole := (Block.mk (front ++ s :: dead) span).check.run c
    let cutOff := (Block.mk (front ++ [s]) span').check.run c
    whole.1 = cutOff.1 ∧ whole.2.exits = cutOff.2.exits ∧ whole.2.scopes = cutOff.2.scopes ∧
      ∃ later : List (Located TypeError),
        whole.2.errors.toList = cutOff.2.errors.toList ++ later ∧
        ((Program.check dead).run (c.afterExit front s).outside).2.errors.toList =
          (c.afterExit front s).errors.toList ++ later := by
  intro whole cutOff
  obtain ⟨result, open', errors⟩ := exits.check_block dead span
  obtain ⟨result', open'', errors'⟩ := exits.check_block [] span'
  have scopes (body : Block) : (body.check.run c).2.scopes = c.scopes :=
    Block.scopes_check (fun s _ => s.anyhow_check) c
  refine ⟨result.trans result'.symm, open'.trans open''.symm,
    (scopes _).trans (scopes _).symm, ?_⟩
  obtain ⟨later, added⟩ := (Program.anyhow_check dead (c.afterExit front s).outside).errors
  refine ⟨later, ?_, added.symm⟩
  rw [errors, errors', ← added]
  rfl

section ReturnThenMore

/-- `return 1`, in a block whose value is used. -/
def returnOne : Expr :=
  .exit .return_ (some (.literal (.int 1) ⟨7, 1⟩)) ⟨0, 8⟩

/-- `return true` and `x`, a name that is not bound. -/
def moreAfterReturn : List Expr :=
  [.exit .return_ (some (.literal (.bool true) ⟨17, 4⟩)) ⟨10, 11⟩, .name ⟨"x", ⟨23, 1⟩⟩ ⟨23, 1⟩]

theorem more_after_return_is_inert :
    Checker.init.opened.FirstExit [] returnOne ∧
      let whole := (Block.mk (returnOne :: moreAfterReturn) ⟨0, 24⟩).check.run Checker.init.opened
      whole.1 = .returned .int ∧ whole.2.exits = [⟨some .int, 0⟩] ∧
        whole.2.errors.toList = [⟨.identifierNotFound "x", ⟨23, 1⟩⟩] := by
  have exits : Checker.init.opened.FirstExit [] returnOne := by
    constructor <;> with_unfolding_all rfl
  obtain ⟨result, frames, -, later, errors, alone⟩ :=
    dead_code_is_inert exits moreAfterReturn ⟨0, 24⟩ ⟨0, 8⟩
  have unbound : [⟨.identifierNotFound "x", ⟨23, 1⟩⟩] = [] ++ later := by
    with_unfolding_all exact alone
  refine ⟨exits, result.trans ?_, frames.trans ?_, errors.trans ?_⟩
  · with_unfolding_all rfl
  · with_unfolding_all rfl
  · rw [unbound]
    with_unfolding_all rfl

end ReturnThenMore

end ExprLang
