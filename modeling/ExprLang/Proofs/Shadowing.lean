import ExprLang.Proofs.Shadowing.Checking
import ExprLang.Proofs.Shadowing.Evaluation
import ExprLang.Proofs.Soundness.Program

set_option autoImplicit false

/-!
The variables of a loop are gone after it, and the names that they took are bound to what they were
bound to before.
-/

namespace ExprLang

open EvalM Scopes

variable {σ : Type} [Sink σ]

/-- A loop with any body, after which the current frame binds the same names as before, and those
of the variables to the same entries. -/
theorem Expr.ends_loop_restored {rounds : Nat} {vars : List Declaration}
    (initial : ∀ d ∈ vars, Moves Unchanged (d.value.eval rounds : EvalM σ _)) (body : Block)
    (span : Span) (m : Machine σ) :
    ((Expr.loop vars body span).eval rounds).Ends m
      (fun _ m' => SameNames m.scopes m'.scopes ∧ ∀ name ∈ vars.map (·.name.name),
        m'.scopes.current.get? name = m.scopes.current.get? name)
      fun _ => True := by
  apply Expr.ends_loop span initial (body.sameNames_eval rounds)
  · intro m' same
    rw [same]
    exact ⟨refl_of SameNames m.scopes, fun _ _ => rfl⟩
  · intro result aside t m' shadows after
    refine ⟨⟨?_, ?_⟩, ?_⟩
    · have depth : t.depth = m.scopes.depth := congrArg List.length shadows.outer
      show (m'.scopes.restore _ aside).outer.length = m.scopes.depth
      rw [outer_restore]
      exact after.depth.trans depth
    · intro name
      rw [shadows.get?_restore]
      split
      next => rfl
      next out => rw [after.bound, shadows.others name out]
    · intro name inside
      rw [shadows.get?_restore, if_pos inside]

/-- After a loop whose variables have initial values that bind nothing, each name of a variable is
bound to what it was bound to, or not bound if it was not, and no other name has come or gone. The
scopes of the checker bind just what they bound before. -/
theorem loop_variables_are_local (vars : List Declaration) (body : Block) (span : Span)
    (bindless : ∀ d ∈ vars, d.value.Bindless) :
    (∀ (rounds : Nat) (m m' : Machine σ) (result : Control Value),
      m.evalExpr rounds (.loop vars body span) = (some result, m') →
        m'.scopes.depth = m.scopes.depth ∧
        (∀ d ∈ vars,
          m'.scopes.current.get? d.name.name = m.scopes.current.get? d.name.name) ∧
        ∀ name, (m'.scopes.current.get? name).isSome = (m.scopes.current.get? name).isSome) ∧
    ∀ c c' : Checker, (c.checkExpr (.loop vars body span)).2 = c' →
      c'.scopes.outer = c.scopes.outer ∧
      ∀ name, c'.scopes.current.get? name = c.scopes.current.get? name := by
  constructor
  · intro rounds m m' result ran
    have initial : ∀ d ∈ vars, Moves Unchanged (d.value.eval rounds : EvalM σ _) :=
      fun d inside => Expr.unchanged_eval rounds (bindless d inside)
    have restored := Expr.ends_loop_restored initial body span m
    obtain ⟨names, entries⟩ := restored.of_ok (Machine.run_of_outcome ran)
    refine ⟨names.depth, ?_, names.bound⟩
    intro d inside
    exact entries d.name.name (List.mem_map_of_mem inside)
  · intro c c' checked
    have initial : ∀ d ∈ vars, CheckM.Leaves d.value.check :=
      fun d inside => Expr.leaves_check (bindless d inside)
    have unchanged := Expr.leaves_loop initial body span c
    have same : ((Expr.loop vars body span).check.run c).2 = c' := checked
    rw [same] at unchanged
    exact ⟨unchanged.outer, unchanged.current⟩

section Repeated

private def origin : Span := ⟨0, 0⟩

private def integer (n : Int) : Expr := .literal (.int n) origin

private def ident (name : String) : Ident := ⟨name, origin⟩

private def loopVariable (name : String) (value : Expr) : Declaration :=
  .mk .var (ident name) (.int origin) value origin

/-- A frame with the constant `x` and the variable `n`. -/
def constantBound : Machine Buffer :=
  ⟨⟨⟨[("x", ⟨.int 5, .const⟩), ("n", ⟨.int 0, .var⟩)]⟩, []⟩, .empty, #[], 0⟩

/-- Three variables, the first and the last of them called `x`; the initial value of the second is
that of a loop over `x`. -/
def repeated : List Declaration :=
  [loopVariable "x" (integer 1),
    loopVariable "y" (.loop [loopVariable "x" (integer 2)]
      (.mk [.exit .break_ (some (.name (ident "x") origin)) origin] origin) origin),
    loopVariable "x" (.name (ident "y") origin)]

/-- Writes to `x` and `n`, goes through another loop over `x`, and leaves. -/
def overwriting : Block :=
  .mk
    [.assign (ident "n") (.name (ident "x") origin) origin,
      .assign (ident "x") (integer 3) origin,
      .loop [loopVariable "x" (integer 4)] (.mk [.exit .break_ none origin] origin) origin,
      .exit .break_ none origin] origin

/-- The constant is there again, `y` is not, and `n` has the value that it was given. -/
theorem repeated_variables_are_local :
    (∀ d ∈ repeated, d.value.Bindless) ∧
    ∃ result m', constantBound.evalExpr 1 (.loop repeated overwriting origin) = (some result, m') ∧
      m'.scopes.current.get? "x" = some ⟨.int 5, .const⟩ ∧
      m'.scopes.current.get? "y" = none ∧
      m'.scopes.current.get? "n" = some ⟨.int 2, .var⟩ := by
  have bindless : ∀ d ∈ repeated, d.value.Bindless := by decide +kernel
  obtain ⟨evaluated, -⟩ :=
    loop_variables_are_local (σ := Buffer) repeated overwriting origin bindless
  have ran : constantBound.evalExpr 1 (.loop repeated overwriting origin) = (some (.normal .none),
      (constantBound.evalExpr 1 (.loop repeated overwriting origin)).2) := by
    with_unfolding_all rfl
  obtain ⟨-, entries, -⟩ := evaluated _ _ _ _ ran
  refine ⟨bindless, _, _, ran, ?_, ?_, ?_⟩
  · exact entries (loopVariable "x" (integer 1)) (by simp [repeated])
  · exact entries (repeated[1]) (by simp [repeated])
  · with_unfolding_all rfl

end Repeated

end ExprLang
