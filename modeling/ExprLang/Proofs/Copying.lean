import ExprLang.Proofs.Copying.Matching
import ExprLang.Proofs.Copying.Passing

set_option autoImplicit false

/-!
When a name of an outer frame is assigned to, the checker binds the name in the current frame too.
Nothing can be seen of that: a checker that does without gives the same types and the same
complaints everywhere.
-/

namespace ExprLang

/-- Whatever has been checked before, a program gets the same result and the same complaints without
copies, and at the root the checkers are left in the same state. Wherever an expression stands in
it, the checker comes by if it is not nested too deep; and there the checkers give the same result
and have complained of the same. -/
theorem checks_same_without_copies (c : Checker) (p : Program) :
    (c.withoutCopies.checkProgram p).1 = (c.checkProgram p).1 ∧
    (c.withoutCopies.checkProgram p).2.errors = (c.checkProgram p).2.errors ∧
    (c.scopes.outer = [] →
      (c.withoutCopies.checkProgram p).2 = (c.checkProgram p).2.withoutCopies) ∧
    (∀ s ∈ p, s.Everywhere fun x => ∃ way, p.Leads way x) ∧
    ∀ way x, p.Leads way x →
      ((way c).depth ≤ maxNesting →
        ((way c).checkExpr x).2.errors.toList <+: (c.checkProgram p).2.errors.toList) ∧
      ((way c.withoutCopies).checkExpr x).1 = ((way c).checkExpr x).1 ∧
      ((way c.withoutCopies).checkExpr x).2.errors = ((way c).checkExpr x).2.errors := by
  have start : c.Matches c.withoutCopies := .refl c
  obtain ⟨same, after⟩ := p.unmoved_check _ _ start
  refine ⟨same, after.errors, ?_, p.everywhere_leads, ?_⟩
  · intro root
    apply after.eq_of_root
    rw [(p.balanced_check c).outer, root]
  · intro way x leads
    obtain ⟨same, after⟩ := x.unmoved_check _ _ (leads.matched start)
    exact ⟨leads.passes, same, after.errors⟩

section Assigned

private def anywhere : Span := ⟨0, 0⟩

private def outside : Ident := ⟨"x", anywhere⟩

/-- A number of the root is assigned to in a block, once as it should be and once not. -/
def assignedInside : Program :=
  [.declare (.mk .var outside (.int anywhere) (.literal (.int 1) anywhere) anywhere) anywhere,
    .block
      (.mk
        [.assign outside (.literal (.int 2) anywhere) anywhere,
          .assign outside (.literal (.bool true) anywhere) anywhere,
          .name outside anywhere] anywhere) anywhere]

/-- At the last statement of the block, one checker has a copy of the name in its frame and the
other has none; still it is a number to both, and they have the same complaint. -/
theorem assignedInside_same_without_copies :
    (Checker.init.withoutCopies.checkProgram assignedInside).2 =
      (Checker.init.checkProgram assignedInside).2.withoutCopies ∧
    (Checker.init.checkProgram assignedInside).2.errors.map (·.cause.code) = #["TC001"] ∧
    ∃ way, assignedInside.Leads way (.name outside anywhere) ∧
      ((way Checker.init).scopes.current.get? "x").isSome = true ∧
      ((way Checker.init.withoutCopies).scopes.current.get? "x").isSome = false ∧
      ((way Checker.init.withoutCopies).checkExpr (.name outside anywhere)).1 = .normal .int := by
  obtain ⟨-, -, root, -, everywhere⟩ := checks_same_without_copies Checker.init assignedInside
  have block := @Program.Leads.statement assignedInside [assignedInside[0]] [] _ rfl
  have last := block.inside (.block (@Block.Leads.statement _ [_, _] [] _ rfl))
  refine ⟨root rfl, by decide +kernel, _, last, by decide +kernel, by decide +kernel, ?_⟩
  rw [(everywhere _ _ last).2.1]
  with_unfolding_all rfl

end Assigned

end ExprLang
