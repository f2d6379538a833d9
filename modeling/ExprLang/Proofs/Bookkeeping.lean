import ExprLang.Proofs.Bookkeeping.Strict
import ExprLang.Session

set_option autoImplicit false

/-!
The bookkeeping of the checker comes out even. Nesting, frames, consumers and the count of blocks
that have been left are changed all over the checker; whatever an expression is, and from whatever
state it is checked, each change is taken back, and on the way no count goes below zero.
-/

namespace ExprLang

/-- Checks an expression with strict accounts. Without a result, the accounts were not in order. -/
def Checker.checkStrictly (c : Checker) (e : Expr) : Option (Control Ty × Checker) :=
  (e.check : StrictM (Control Ty)).run c

theorem ExitFrame.Kept.counts_eq {f g : List ExitFrame} (h : ExitFrame.Kept 0 f g) :
    g.map (·.unreachable) = f.map (·.unreachable) := by
  cases h with
  | top => rfl
  | inner unreachable _ => rw [List.map_cons, List.map_cons, unreachable, Nat.add_zero]

/-- Checking an expression leaves the checker as deep in as it was, in as many frames and in as many
consumers, with the same count of blocks left for each of them. Consumers further out are untouched,
and the innermost one keeps the type of its exits once it has one. Errors are added to those that
there were. On the way no count is lowered at zero, nothing is closed that is not open, and no type
on record is replaced: strict accounts make no difference. -/
theorem checking_is_balanced (c : Checker) (e : Expr) :
    let after := (c.checkExpr e).2
    after.depth = c.depth ∧
    after.scopes.depth = c.scopes.depth ∧
    after.exits.length = c.exits.length ∧
    after.exits.map (·.unreachable) = c.exits.map (·.unreachable) ∧
    after.exits.tail = c.exits.tail ∧
    (∀ t, c.exitType = some t → after.exitType = some t) ∧
    c.errors.toList <+: after.errors.toList ∧
    c.checkStrictly e = some (c.checkExpr e) := by
  intro after
  obtain ⟨agrees, balanced⟩ := e.completes_check
  have kept : Checker.Kept False 0 c after := balanced c
  have counts := kept.exits.counts_eq
  have length : after.exits.length = c.exits.length := by
    simpa only [List.length_map] using congrArg List.length counts
  exact ⟨kept.depth, congrArg List.length kept.outer, length, counts, kept.exits.tail,
    fun _ => kept.exitType_eq, kept.errors, agrees c⟩

section Leaving

private def somewhere : Span := ⟨0, 0⟩

/-- Inside a block and two consumers, the inner of which numbers have reached. -/
def midway : Checker :=
  { Checker.init with
    scopes := Scopes.root.enter
    exits := [⟨some .int, 0⟩, ⟨none, 1⟩]
    depth := 5 }

/-- `return true`, and after it a block with `break 1` and `x`, a name that is not bound. -/
def leavingTwice : Expr :=
  .block
    (.mk
      [.exit .return_ (some (.literal (.bool true) somewhere)) somewhere,
        .block
          (.mk
            [.exit .break_ (some (.literal (.int 1) somewhere)) somewhere,
              .name ⟨"x", somewhere⟩ somewhere] somewhere) somewhere] somewhere) somewhere

/-- Two blocks are left for certain, one inside the other. The exits that are met are not numbers or
are not reached, so the type on record stays. -/
theorem leavingTwice_is_balanced :
    midway.exitType = some .int ∧
    (midway.checkExpr leavingTwice).2.exitType = some .int ∧
    (midway.checkExpr leavingTwice).2.exits.map (·.unreachable) = [0, 1] ∧
    (midway.checkExpr leavingTwice).2.errors.map (·.cause.code) = #["TC020", "TC002"] ∧
    midway.checkStrictly leavingTwice = some (midway.checkExpr leavingTwice) := by
  obtain ⟨-, -, -, counts, -, kept, -, strict⟩ := checking_is_balanced midway leavingTwice
  exact ⟨rfl, kept .int rfl, counts, by decide +kernel, strict⟩

end Leaving

end ExprLang
