import ExprLang.Proofs.Soundness.Simulation
import ExprLang.Session

set_option autoImplicit false

/-!
Whole programs. Evaluation stops at the first exit, while the checker goes on to the end; up to that
point the two agree.
-/

namespace ExprLang

theorem Machine.outcome_eq_some {σ : Type} {node : EvalM σ (Control Value)} {m : Machine σ}
    {r : Control Value} (h : (outcome node m).1 = some r) :
    node.run m = .ok r (outcome node m).2 := by
  unfold outcome at *
  split at h
  next r' m' ran =>
    rw [ran]
    cases h
    rfl
  next => cases h

theorem Machine.run_of_outcome {σ : Type} {node : EvalM σ (Control Value)} {m m' : Machine σ}
    {r : Control Value} (h : outcome node m = (some r, m')) : node.run m = .ok r m' := by
  have ended := outcome_eq_some (congrArg Prod.fst h)
  rwa [h] at ended

section Reached

variable {σ : Type} [Sink σ]

/-- The statements of a program that a run comes to: up to its end, to the first exit, or to the
place where a loop runs out of rounds. -/
def Program.reached (rounds : Nat) (m : Machine σ) : Program → List Expr
  | [] => []
  | statement :: rest =>
    match (statement.eval rounds).run m with
    | .ok result m' =>
      if result.isSignal then [statement] else statement :: Program.reached rounds m' rest
    | .error _ _ => [statement]

/-- The statements that a run passes by. -/
def Program.unreached (rounds : Nat) (m : Machine σ) (p : Program) : List Expr :=
  p.drop (Program.reached rounds m p).length

theorem Program.reached_append_unreached (rounds : Nat) (m : Machine σ) (p : Program) :
    Program.reached rounds m p ++ Program.unreached rounds m p = p := by
  unfold Program.unreached
  induction p generalizing m with
  | nil => rfl
  | cons statement rest ih =>
    rw [Program.reached]
    split
    next result m' _ =>
      split
      · rfl
      · exact congrArg (statement :: ·) (ih m')
    next => rfl

end Reached

open CheckM

/-- Checking the rest of a program goes on from where the first part has left the checker. -/
theorem Program.check_append (first rest : List Expr) (c : Checker) :
    ((Program.check (first ++ rest)).run c).2 =
      ((Program.check rest).run ((Program.check first).run c).2).2 := by
  induction first generalizing c with
  | nil => rfl
  | cons statement first ih =>
    rw [List.cons_append, Program.check, Program.check, run_bind, run_bind, run_bind, run_bind]
    exact ih _

theorem Program.clean_statement {before after : List Expr} {x : Expr} {c : Checker}
    (clean : ((Program.check (before ++ x :: after)).run c).2.Clean) :
    ((Program.check before).run c).2.Clean ∧
      (x.check.run ((Program.check before).run c).2).2.Clean := by
  rw [Program.check_append, Program.check, run_bind, run_bind] at clean
  have here := (Program.balanced_check after _).clean clean
  exact ⟨(x.anyhow_check _).clean here, here⟩

namespace Soundness

variable {σ : Type} [Sink σ] {typed : Prop} {base : Array (Located RuntimeError)} {rounds : Nat}
  {c : Checker} {m : Machine σ}

/-- After a run, the states agree as if the checker had stopped where the machine did. What the
checker says of the whole program holds all the same. -/
structure Ran (typed : Prop) (base : Array (Located RuntimeError)) (c : Checker) (p : Program)
    (reached : List Expr) (r : Control Value) (m : Machine σ) : Prop where
  agree : Agree typed base ((Program.check reached).run c).2 m
  all : r.isSignal = false → reached = p
  certain : typed → ((Program.check p).run c).1.isSignal = true → r.isSignal = true

theorem ends_program {p : Program} (h : ∀ s ∈ p, Sound σ typed base rounds s)
    (agree : Agree typed base c m) (clean : ((Program.check p).run c).2.Clean) :
    (p.eval rounds).Ends m (Ran typed base c p (p.reached rounds m)) (Foreseen typed base) := by
  unfold Program.eval
  induction p generalizing c m with
  | nil =>
    rw [Expr.evalStatements, EvalM.ends_pure]
    exact ⟨agree, fun _ => rfl, fun _ signal => by cases signal⟩
  | cons statement rest ih =>
    obtain ⟨first, others⟩ := List.forall_mem_cons.1 h
    have clean' : ((Program.check rest).run (statement.check.run c).2).2.Clean := clean
    rw [Expr.evalStatements, EvalM.ends_bind]
    refine (first c m agree ((Program.balanced_check rest _).clean clean')).imp
      fun r m' ran both => ?_
    obtain ⟨agree', fits⟩ := both
    by_cases exits : r.isSignal = true
    · have reached : Program.reached rounds m (statement :: rest) = [statement] := by
        rw [Program.reached, ran]
        exact if_pos exits
      rw [if_pos exits, EvalM.ends_pure, reached]
      refine ⟨agree', fun normal => ?_, fun _ _ => exits⟩
      rw [exits] at normal
      cases normal
    · have reached : Program.reached rounds m (statement :: rest) =
          statement :: Program.reached rounds m' rest := by
        rw [Program.reached, ran]
        exact if_neg exits
      rw [if_neg exits, reached]
      refine (ih others agree' clean').mono (fun r' m'' all => ?_) fun _ out => out
      refine ⟨all.agree, fun normal => by rw [all.all normal], fun ht signal => ?_⟩
      rw [Program.check, run_bind, run_bind] at signal
      have normal : (statement.check.run c).1.isSignal ≠ true := fun s =>
        exits ((fits ht).certain s)
      rw [if_neg normal] at signal
      exact all.certain ht signal

/-- Whether or not the run comes to an end, nothing unforeseen is noted. -/
theorem foreseen_run {p : Program} (h : ∀ s ∈ p, Sound σ typed base rounds s)
    (agree : Agree typed base c m) (clean : ((Program.check p).run c).2.Clean) :
    Foreseen typed base (m.runProgram rounds p).2 := by
  have ends := ends_program h agree clean
  unfold EvalM.Ends at ends
  unfold Machine.runProgram Machine.outcome
  cases ran : (p.eval rounds).run m with
  | ok r m' =>
    rw [ran] at ends
    exact ends.agree.errors
  | error out m' =>
    rw [ran] at ends
    exact ends

omit [Sink σ] in
theorem agree_init (sink : σ) : Agree typed #[] Checker.init (Machine.init sink) := by
  refine ⟨rfl, .root, fun _ frame inside => ?_, fun e inside => ?_⟩
  · cases inside
  · exact absurd inside (Array.not_mem_empty e)

/-- Statements that have all been run leave the states in agreement. -/
theorem agree_of_normal {p : Program} (h : ∀ s ∈ p, Sound σ typed base rounds s)
    (agree : Agree typed base c m) (clean : ((Program.check p).run c).2.Clean) {v : Value}
    {m' : Machine σ} (ran : (p.eval rounds).run m = .ok (.normal v) m') :
    Agree typed base ((Program.check p).run c).2 m' := by
  have done := (ends_program h agree clean).of_ok ran
  have agree' := done.agree
  rwa [done.all rfl] at agree'

end Soundness

end ExprLang
