import ExprLang.Proofs.CheckerRun

set_option autoImplicit false

/-!
Two checks side by side. They may complain at different places, and what they keep in their scopes
may differ; what counts is that they give the same results, and go from related states to related
states. Each rule says of one step that both sides can take it together.
-/

namespace ExprLang.CheckM

variable {α β : Type} {R : Checker → Checker → Prop} {S : Span → Span → Prop}

/-- From related states, both checks give the same result and leave related states. -/
def Parallel (R : Checker → Checker → Prop) (x y : CheckM α) : Prop :=
  ∀ c d, R c d → (y.run d).1 = (x.run c).1 ∧ R (x.run c).2 (y.run d).2

/-- What a relation of states has to keep: the open consumers and the nesting are the same, and
change on both sides in the same way. Complaints are laid to places that `S` relates. -/
structure Follows (R : Checker → Checker → Prop) (S : Span → Span → Prop) : Prop where
  exits : ∀ {c d}, R c d → d.exits = c.exits
  depth : ∀ {c d}, R c d → d.depth = c.depth
  consumed : ∀ {c d}, R c d → ∀ exits, R { c with exits } { d with exits }
  moved : ∀ {c d}, R c d → ∀ depth, R { c with depth } { d with depth }
  noted : ∀ {c d}, R c d → ∀ cause {s t}, S s t → R (c.noted cause s) (d.noted cause t)

theorem parallel_pure (a : α) : Parallel R (pure a) (pure a) :=
  fun _ _ related => ⟨rfl, related⟩

theorem Parallel.bind {x y : CheckM α} {f g : α → CheckM β} (first : Parallel R x y)
    (rest : ∀ a, Parallel R (f a) (g a)) : Parallel R (x >>= f) (y >>= g) := by
  intro c d related
  obtain ⟨same, after⟩ := first c d related
  rw [run_bind, run_bind, same]
  exact rest _ _ _ after

namespace Follows

variable {c d : Checker} (follows : Follows R S)

include follows

theorem notedIf (related : R c d) (reason : Prop) [Decidable reason] (cause : TypeError)
    {s t : Span} (places : S s t) : R (c.notedIf reason cause s) (d.notedIf reason cause t) := by
  unfold Checker.notedIf
  split
  · exact follows.noted related cause places
  · exact related

theorem deeper (related : R c d) : R c.deeper d.deeper := by
  have depth : d.deeper = { d with depth := c.depth + 1 } := by
    rw [Checker.deeper, follows.depth related]
  rw [depth]
  exact follows.moved related _

theorem shallower (related : R c d) : R c.shallower d.shallower := by
  have depth : d.shallower = { d with depth := c.depth - 1 } := by
    rw [Checker.shallower, follows.depth related]
  rw [depth]
  exact follows.moved related _

theorem opened (related : R c d) : R c.opened d.opened := by
  have exits : d.opened = { d with exits := ⟨none, 0⟩ :: c.exits } := by
    rw [Checker.opened, follows.exits related]
  rw [exits]
  exact follows.consumed related _

theorem closed (related : R c d) : R c.closed d.closed := by
  have exits : d.closed = { d with exits := c.exits.tail } := by
    rw [Checker.closed, follows.exits related]
  rw [exits]
  exact follows.consumed related _

theorem exitType (related : R c d) : d.exitType = c.exitType := by
  rw [Checker.exitType, Checker.exitType, follows.exits related]

end Follows

section Steps

variable (follows : Follows R S)

include follows

theorem parallel_report (cause : TypeError) {s t : Span} (places : S s t) :
    Parallel R (report cause s) (report cause t) :=
  fun _ _ related => ⟨rfl, follows.noted related cause places⟩

/-- The usual way to complain: under a condition, before going on. -/
theorem parallel_reportIf (reason : Prop) [Decidable reason] (cause : TypeError) {s t : Span}
    (places : S s t) {f g : Unit → CheckM α} (rest : Parallel R (f ()) (g ())) :
    Parallel R (if reason then report cause s >>= f else f ())
      (if reason then report cause t >>= g else g ()) := by
  intro c d related
  rw [run_reportIf, run_reportIf]
  exact rest _ _ (follows.notedIf related reason cause places)

theorem parallel_settle (verdict : Verdict) {s t : Span} (places : S s t) :
    Parallel R (settle verdict s) (settle verdict t) := by
  intro c d related
  rw [run_settle, run_settle]
  refine ⟨rfl, ?_⟩
  cases verdict.complaint with
  | none => exact related
  | some complaint => exact follows.noted related complaint places

theorem parallel_nested {x y : CheckM (Control Ty)} (h : Parallel R x y) {s t : Span}
    (places : S s t) : Parallel R (nested s x) (nested t y) := by
  intro c d related
  rw [run_nested, run_nested, follows.depth related]
  split
  · exact ⟨rfl, follows.noted related .tooDeep places⟩
  · obtain ⟨same, after⟩ := h _ _ (follows.deeper related)
    exact ⟨same, follows.shallower after⟩

theorem parallel_consuming {x y : CheckM α} (h : Parallel R x y) :
    Parallel R (consuming x) (consuming y) := by
  intro c d related
  obtain ⟨same, after⟩ := h _ _ (follows.opened related)
  have type := follows.exitType after
  exact ⟨Prod.ext same type, follows.closed after⟩

theorem parallel_asValue {x y : CheckM (Control Ty)} (h : Parallel R x y) {s t : Span}
    (places : S s t) : Parallel R (asValue s x) (asValue t y) := by
  intro c d related
  obtain ⟨same, after⟩ := h _ _ (follows.opened related)
  rw [run_asValue, run_asValue, same, follows.exitType after]
  have closed := follows.closed after
  split
  · exact ⟨rfl, follows.notedIf closed _ _ places⟩
  · exact ⟨rfl, closed⟩

theorem parallel_recordExit (type : Ty) {s t : Span} (places : S s t) :
    Parallel R (recordExit type s) (recordExit type t) := by
  intro c d related
  cases exits : c.exits with
  | nil =>
    have exits' := (follows.exits related).trans exits
    rw [run_recordExit_top exits, run_recordExit_top exits']
    exact ⟨rfl, related⟩
  | cons frame frames =>
    have exits' := (follows.exits related).trans exits
    by_cases live : frame.unreachable = 0
    · cases seen : frame.type with
      | none =>
        rw [run_recordExit_first exits live seen, run_recordExit_first exits' live seen]
        exact ⟨rfl, follows.consumed related _⟩
      | some expected =>
        rw [run_recordExit_again exits live seen, run_recordExit_again exits' live seen]
        exact ⟨rfl, follows.notedIf related _ _ places⟩
    · rw [run_recordExit_unreachable exits live, run_recordExit_unreachable exits' live]
      exact ⟨rfl, related⟩

theorem parallel_updateUnreachable (f : Nat → Nat) :
    Parallel R (updateUnreachable f) (updateUnreachable f) := by
  intro c d related
  cases exits : c.exits with
  | nil =>
    have exits' := (follows.exits related).trans exits
    rw [run_updateUnreachable_top exits, run_updateUnreachable_top exits']
    exact ⟨rfl, related⟩
  | cons frame frames =>
    have exits' := (follows.exits related).trans exits
    rw [run_updateUnreachable_inner exits, run_updateUnreachable_inner exits']
    exact ⟨rfl, follows.consumed related _⟩

theorem parallel_join (first other : Control Ty) (compare : Bool) {s t : Span} (places : S s t) :
    Parallel R (join first other compare s) (join first other compare t) := by
  intro c d related
  rw [run_join, run_join]
  exact ⟨rfl, follows.notedIf related _ _ places⟩

end Steps

end ExprLang.CheckM
