import ExprLang.Proofs.ParallelEvaluation

set_option autoImplicit false

/-!
Evaluation does not look at places. A tree and the same tree without its places are evaluated side
by side, to the same results; only the places of the errors differ.
-/

namespace ExprLang

variable {σ : Type}

/-- Nothing differs but the places of the errors. -/
structure Machine.Like (m n : Machine σ) : Prop where
  scopes : n.scopes = m.scopes
  sink : n.sink = m.sink
  causes : n.errors.map (·.cause) = m.errors.map (·.cause)
  depth : n.depth = m.depth

namespace Machine.Like

variable {m n : Machine σ}

theorem refl (m : Machine σ) : m.Like m :=
  ⟨rfl, rfl, rfl, rfl⟩

theorem symm (h : m.Like n) : n.Like m :=
  ⟨h.scopes.symm, h.sink.symm, h.causes.symm, h.depth.symm⟩

theorem trans {k : Machine σ} (h : m.Like n) (h' : n.Like k) : m.Like k :=
  ⟨h'.scopes.trans h.scopes, h'.sink.trans h.sink, h'.causes.trans h.causes, h'.depth.trans h.depth⟩

end Machine.Like

namespace EvalM

variable {α : Type}

variable (σ) in
theorem follows_like [Sink σ] : Follows (@Machine.Like σ) fun _ _ => True where
  scopes like := like.scopes
  depth like := like.depth
  rescoped like _ := ⟨rfl, like.sink, like.causes, like.depth⟩
  moved like _ := ⟨like.scopes, like.sink, like.causes, rfl⟩
  noted like cause _ _ _ := by
    refine ⟨like.scopes, like.sink, ?_, like.depth⟩
    simp only [Machine.noted, Array.map_push, like.causes]
  wrote like piece := ⟨like.scopes, congrArg (Sink.write piece) like.sink, like.causes, like.depth⟩

/-- From states that differ in places only, both evaluations go the same way. -/
abbrev Alike (x y : EvalM σ α) : Prop :=
  Parallel Machine.Like x y

theorem Alike.symm {x y : EvalM σ α} (h : Alike x y) : Alike y x := by
  intro m n like
  have ends := h n m like.symm
  generalize x.run n = left at ends ⊢
  generalize y.run m = right at ends ⊢
  cases ends with
  | ok related => exact .ok related.symm
  | out related => exact .out related.symm

theorem Alike.trans {x y z : EvalM σ α} (h : Alike x y) (h' : Alike y z) : Alike x z := by
  intro m n like
  have first := h m m (.refl m)
  have second := h' m n like
  generalize x.run m = left at first ⊢
  generalize y.run m = middle at first second
  generalize z.run n = right at second ⊢
  cases first with
  | ok related =>
    cases second with
    | ok related' => exact .ok (related.trans related')
  | out related =>
    cases second with
    | out related' => exact .out (related.trans related')

end EvalM

open EvalM

/-- A program and the program without its places are evaluated in the same way. -/
theorem Program.alike_eval [Sink σ] (rounds : Nat) (p : Program) :
    Alike (Program.eval rounds p : EvalM σ _) (Program.eval rounds p.bare) :=
  Expr.parallel_evalStatements (follows_like σ) (inStep_plain (follows_like σ)) (fun _ => trivial)
    rounds p

end ExprLang
