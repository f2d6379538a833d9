import ExprLang.Proofs.Soundness.Program

set_option autoImplicit false

/-!
Sessions. From one program to the next, the root scopes of the checker and the machine agree, as
long as the machine comes to every declaration that the checker has seen.
-/

namespace ExprLang

/-- Both bind a name in the same way, to a type and to a value of that type; or neither does. -/
def SameBinding : Option (Entry Ty) → Option (Entry Value) → Prop
  | some declared, some held =>
    held.binding = declared.binding ∧ held.payload.type = declared.payload
  | none, none => True
  | _, _ => False

section Rest

variable {σ : Type}

/-- The root scopes bind the same names in the same way, and values are of the types on record. -/
def RootsAgree (c : Checker) (m : Machine σ) : Prop :=
  ∀ name, SameBinding (c.scopes.current.get? name) (m.scopes.current.get? name)

/-- Between two programs only the root is open, no consumer is, and nothing is nested. -/
structure AtRest (c : Checker) (m : Machine σ) : Prop where
  roots : c.scopes.outer = [] ∧ m.scopes.outer = []
  exits : c.exits = []
  depth : c.depth = 0 ∧ m.depth = 0

end Rest

variable {σ : Type} [Sink σ]

/-- A session in which every program that was run has come to its end, and has not passed by any
declaration that the checker has seen. -/
inductive Session.Steady (rounds : Nat) : Session → Prop where
  | init : Steady rounds .init
  | rejected {s : Session} {p : Program} (before : Steady rounds s)
      (complaint : (s.check p).2.checker.hasErrors = true) :
      Steady rounds (s.submit rounds p).2.2
  | ran {s : Session} {p : Program} {r : Control Value} (before : Steady rounds s)
      (quiet : p.QuietElseIfs) (ended : (s.submit rounds p).2.1 = some r)
      (passed : ∀ e ∈ p.unreached rounds s.machine, e.Quiet) :
      Steady rounds (s.submit rounds p).2.2

namespace Soundness

section Rest

variable {σ : Type} {base : Array (Located RuntimeError)} {c : Checker} {m : Machine σ}

/-- At rest nothing is hidden in frames, so that agreeing roots are all there is to it. -/
theorem agree_of_roots (rest : AtRest c m) (roots : RootsAgree c m) :
    Agree False m.errors c m := by
  obtain ⟨⟨outer, outer'⟩, -, depth, depth'⟩ := rest
  refine ⟨depth'.trans depth.symm, ?_, False.elim, fun e inside => .inl inside⟩
  unfold Scopes.InStep
  rw [outer, outer']
  refine .cons (fun name => ?_) .nil
  have same := roots name
  cases declared : c.scopes.current.get? name with
  | none =>
    cases held : m.scopes.current.get? name with
    | none => exact .neither
    | some b =>
      rw [declared, held] at same
      exact False.elim same
  | some a =>
    cases held : m.scopes.current.get? name with
    | none =>
      rw [declared, held] at same
      exact False.elim same
    | some b =>
      rw [declared, held] at same
      exact .both same.1 ⟨same.2, False.elim⟩

theorem roots_of_agree (agree : Agree False base c m) (root : c.scopes.outer = []) :
    RootsAgree c m := by
  intro name
  have slot := agree.scopes.slots name
  rw [root] at slot
  rcases slot.cases with ⟨a, b, declared, held, binding, holds⟩ | ⟨declared, held⟩ |
    ⟨a, -, -, absurd⟩
  · rw [declared, held]
    exact ⟨binding, holds.1⟩
  · rw [declared, held]
    trivial
  · cases absurd

theorem rest_of_agree {c' : Checker} {m' : Machine σ} {quiet : Prop} (rest : AtRest c m)
    (kept : c.Kept quiet 0 c') (agree : Agree False base c' m') : AtRest c' m' := by
  obtain ⟨⟨outer, -⟩, exits, depth, -⟩ := rest
  have outer' := kept.outer.trans outer
  have depth' := kept.depth.trans depth
  refine ⟨⟨outer', ?_⟩, ?_, depth', agree.depth.trans depth'⟩
  · have frames := agree.scopes.outer
    rw [outer'] at frames
    generalize m'.scopes.outer = outer'' at frames ⊢
    cases frames
    rfl
  · have frames := kept.exits
    rw [exits] at frames
    generalize c'.exits = exits' at frames ⊢
    cases frames
    rfl

end Rest

variable {rounds : Nat} {c : Checker} {m : Machine σ} {p : Program}

/-- A run takes the machine to where the checker is after the statements that were reached. -/
theorem run_in_step (rest : AtRest c m) (roots : RootsAgree c m) (quiet : p.QuietElseIfs)
    (clean : (c.checkProgram p).2.Clean) {r : Control Value}
    (ran : (m.runProgram rounds p).1 = some r) :
    (AtRest (c.checkProgram (p.reached rounds m)).2 (m.runProgram rounds p).2 ∧
      RootsAgree (c.checkProgram (p.reached rounds m)).2 (m.runProgram rounds p).2) ∧
    (r.isSignal = false → p.reached rounds m = p) ∧
    ((∀ e ∈ p.unreached rounds m, e.Quiet) →
      AtRest (c.checkProgram p).2 (m.runProgram rounds p).2 ∧
      RootsAgree (c.checkProgram p).2 (m.runProgram rounds p).2) := by
  have sounds : ∀ s ∈ p, Sound σ False m.errors rounds s := fun s inside => sound s (quiet s inside)
  have done := (ends_program sounds (agree_of_roots rest roots) clean).of_ok
    (Machine.outcome_eq_some ran)
  have kept := Program.balanced_check (p.reached rounds m) c
  refine ⟨⟨rest_of_agree rest kept done.agree, ?_⟩, done.all, fun passed => ?_⟩
  · exact roots_of_agree done.agree (kept.outer.trans rest.roots.1)
  · have later := Program.balanced_check (p.unreached rounds m)
      ((Program.check (p.reached rounds m)).run c).2
    rw [← Program.check_append, Program.reached_append_unreached] at later
    have agree := done.agree.checker (later.mono fun _ => passed)
    have whole := Program.balanced_check p c
    exact ⟨rest_of_agree rest whole agree, roots_of_agree agree (whole.outer.trans rest.roots.1)⟩

/-- The run of a program notes no name as unbound that has not been noted before. -/
theorem bound_in_run (rest : AtRest c m) (roots : RootsAgree c m) (quiet : p.QuietElseIfs)
    (clean : (c.checkProgram p).2.Clean) (e : Located RuntimeError)
    (inside : e ∈ (m.runProgram rounds p).2.errors) :
    e ∈ m.errors ∨ e.cause.isUnbound = false := by
  have sounds : ∀ s ∈ p, Sound σ False m.errors rounds s := fun s inside => sound s (quiet s inside)
  rcases foreseen_run sounds (agree_of_roots rest roots) clean e inside with before | allowed
  · exact .inl before
  · exact .inr allowed.1

end Soundness

section Sessions

open Soundness

variable {rounds : Nat} {s : Session} {p : Program}

theorem Session.submit_rejected (complaint : (s.check p).2.checker.hasErrors = true) :
    s.submit rounds p = ((s.check p).1, none, (s.check p).2) :=
  if_pos complaint

theorem Session.submit_accepted (accepted : (s.check p).2.checker.hasErrors ≠ true) :
    s.submit rounds p = ((s.check p).1, (s.machine.runProgram rounds p).1,
      ⟨(s.checker.checkProgram p).2, (s.machine.runProgram rounds p).2⟩) :=
  if_neg accepted

/-- While nothing has been rejected, the two sides of a steady session agree. -/
structure Session.InStep (s : Session) : Prop where
  bound : ∀ e ∈ s.machine.errors, e.cause.isUnbound = false
  agree : s.checker.Clean → AtRest s.checker s.machine ∧ RootsAgree s.checker s.machine

theorem Session.inStep_init : Session.init.InStep := by
  refine ⟨fun e inside => absurd inside (Array.not_mem_empty e), fun _ => ⟨?_, fun name => trivial⟩⟩
  exact ⟨⟨rfl, rfl⟩, rfl, rfl, rfl⟩

/-- Whatever comes of the program, no name is met that is not bound. -/
theorem Session.InStep.bound_submit (h : s.InStep) (rounds : Nat) (quiet : p.QuietElseIfs) :
    ∀ e ∈ (s.submit rounds p).2.2.machine.errors, e.cause.isUnbound = false := by
  by_cases complaint : (s.check p).2.checker.hasErrors = true
  · rw [Session.submit_rejected complaint]
    exact h.bound
  · rw [Session.submit_accepted complaint]
    have clean : (s.checker.checkProgram p).2.Clean :=
      Checker.clean_iff.2 (Bool.eq_false_iff.2 complaint)
    obtain ⟨rest, roots⟩ := h.agree ((Program.balanced_check p s.checker).clean clean)
    intro e inside
    rcases bound_in_run rest roots quiet clean e inside with before | bound
    · exact h.bound e before
    · exact bound

theorem Session.Steady.inStep (h : s.Steady rounds) : s.InStep := by
  induction h with
  | init => exact Session.inStep_init
  | @rejected s p _ complaint ih =>
    rw [Session.submit_rejected complaint]
    refine ⟨ih.bound, fun clean => ?_⟩
    rw [Checker.clean_iff.1 clean] at complaint
    cases complaint
  | @ran s p r _ quiet ended passed ih =>
    refine ⟨ih.bound_submit rounds quiet, fun clean => ?_⟩
    by_cases complaint : (s.check p).2.checker.hasErrors = true
    · rw [Session.submit_rejected complaint] at ended
      cases ended
    · rw [Session.submit_accepted complaint] at ended clean ⊢
      obtain ⟨rest, roots⟩ := ih.agree ((Program.balanced_check p s.checker).clean clean)
      exact (run_in_step rest roots quiet clean ended).2.2 passed

end Sessions

/-- From roots that agree, a run that ends leaves the machine in step with the checker as it was
after the statements that were reached: after all of them, if no exit has come to the top level.
The statements that an exit passes by do not matter either if they declare nothing. Hence in a
steady session no name is met that is not bound. -/
theorem roots_agree_after_reached (rounds : Nat) :
    (∀ (c : Checker) (m : Machine σ) (p : Program), AtRest c m → RootsAgree c m →
      p.QuietElseIfs → (c.checkProgram p).2.hasErrors = false →
      ∀ r, (m.runProgram rounds p).1 = some r →
        RootsAgree (c.checkProgram (p.reached rounds m)).2 (m.runProgram rounds p).2 ∧
        (r.isSignal = false → p.reached rounds m = p) ∧
        ((∀ e ∈ p.unreached rounds m, e.Quiet) →
          RootsAgree (c.checkProgram p).2 (m.runProgram rounds p).2)) ∧
    ∀ s : Session, s.Steady rounds → ∀ p : Program, p.QuietElseIfs →
      ∀ e ∈ (s.submit rounds p).2.2.machine.errors, ∀ name, e.cause ≠ .identifierNotFound name := by
  refine ⟨fun c m p rest roots quiet checked r ran => ?_,
    fun s steady p quiet e inside name eq => ?_⟩
  · obtain ⟨⟨-, reached⟩, all, passed⟩ :=
      Soundness.run_in_step rest roots quiet (Checker.clean_iff.2 checked) ran
    exact ⟨reached, all, fun declares => (passed declares).2⟩
  · have bound := steady.inStep.bound_submit rounds quiet e inside
    rw [eq] at bound
    cases bound

section PassedBy

private def start : Span := ⟨0, 0⟩

private def bindX (type : TypeExpr) (value : Literal) : Expr :=
  .declare (.mk .var ⟨"x", start⟩ type (.literal value start) start) start

/-- Returns before it comes to a declaration. -/
def declaredAfterExit : Program :=
  [.exit .return_ (some (.literal (.int 1) start)) start, bindX (.int start) (.int 2)]

/-- Takes the first branch, and passes by a declaration in the second condition. -/
def declaredInElseIf : Program :=
  [.cond (.withElseIf (.literal (.bool true) start) (.mk [] start)
    (.only (bindX (.bool start) (.bool true)) (.mk [] start)) start) start]

theorem roots_differ_after_declaration_passed_by :
    (AtRest Checker.init (Machine.init Buffer.empty) ∧
      RootsAgree Checker.init (Machine.init Buffer.empty)) ∧
    ((Checker.init.checkProgram declaredAfterExit).2.hasErrors = false ∧
      ((Machine.init Buffer.empty).runProgram 0 declaredAfterExit).1 = some (.returned (.int 1)) ∧
      ¬ RootsAgree (Checker.init.checkProgram declaredAfterExit).2
        ((Machine.init Buffer.empty).runProgram 0 declaredAfterExit).2) ∧
    ((Checker.init.checkProgram declaredInElseIf).2.hasErrors = false ∧
      ((Machine.init Buffer.empty).runProgram 0 declaredInElseIf).1 = some (.normal .none) ∧
      ¬ RootsAgree (Checker.init.checkProgram declaredInElseIf).2
        ((Machine.init Buffer.empty).runProgram 0 declaredInElseIf).2) :=
  ⟨⟨⟨⟨rfl, rfl⟩, rfl, rfl, rfl⟩, fun _ => trivial⟩, ⟨rfl, rfl, fun agree => agree "x"⟩,
    rfl, rfl, fun agree => agree "x"⟩

/-- Declares a name and then returns; a later program uses the name. -/
def declaredBeforeExit : Program :=
  declaredAfterExit.reverse

theorem steady_declaredBeforeExit :
    (Session.init.submit 0 declaredBeforeExit).2.2.Steady 0 :=
  .ran .init (by decide +kernel) rfl fun _ inside => nomatch inside

theorem roots_agree_at_exit :
    (declaredAfterExit.reached 0 (Machine.init Buffer.empty) = declaredAfterExit.take 1 ∧
      RootsAgree (Checker.init.checkProgram (declaredAfterExit.take 1)).2
        ((Machine.init Buffer.empty).runProgram 0 declaredAfterExit).2) ∧
    ∀ e ∈ ((Session.init.submit 0 declaredBeforeExit).2.2.submit 0
        [.name ⟨"x", start⟩ start]).2.2.machine.errors,
      ∀ name, e.cause ≠ .identifierNotFound name := by
  refine ⟨⟨rfl, ?_⟩, ?_⟩
  · exact ((roots_agree_after_reached 0).1 Checker.init (Machine.init Buffer.empty)
      declaredAfterExit ⟨⟨rfl, rfl⟩, rfl, rfl, rfl⟩ (fun _ => trivial)
      (by decide +kernel) rfl _ rfl).1
  · refine (roots_agree_after_reached 0 (σ := Buffer)).2 _ steady_declaredBeforeExit _ ?_
    exact List.forall_mem_cons.2 ⟨.intro (List.forall_mem_nil _) (List.forall_mem_nil _),
      List.forall_mem_nil _⟩

end PassedBy

end ExprLang
