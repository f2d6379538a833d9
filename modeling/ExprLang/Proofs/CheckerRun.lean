import ExprLang.Typing.Checker

set_option autoImplicit false

/-!
The steps of the checker as functions on its state: each equation says once what a step gives and
what it leaves behind.
-/

namespace ExprLang

namespace Checker

/-- With one more complaint. -/
def noted (c : Checker) (cause : TypeError) (span : Span) : Checker :=
  { c with errors := c.errors.push ⟨cause, span⟩ }

/-- With one more complaint if there is reason for it. -/
def notedIf (c : Checker) (reason : Prop) [Decidable reason] (cause : TypeError) (span : Span) :
    Checker :=
  if reason then c.noted cause span else c

@[simp] theorem scopes_notedIf (c : Checker) (reason : Prop) [Decidable reason]
    (cause : TypeError) (span : Span) : (c.notedIf reason cause span).scopes = c.scopes := by
  unfold notedIf
  split <;> rfl

/-- One level further in. -/
def deeper (c : Checker) : Checker :=
  { c with depth := c.depth + 1 }

/-- One level further out. -/
def shallower (c : Checker) : Checker :=
  { c with depth := c.depth - 1 }

/-- In a new frame. -/
def entered (c : Checker) : Checker :=
  { c with scopes := c.scopes.enter }

/-- Out of the current frame. -/
def left (c : Checker) : Checker :=
  { c with scopes := c.scopes.exit }

/-- In a new consumer. -/
def opened (c : Checker) : Checker :=
  { c with exits := ⟨none, 0⟩ :: c.exits }

/-- Out of the innermost consumer. -/
def closed (c : Checker) : Checker :=
  { c with exits := c.exits.tail }

/-- The type of the exits that have reached the innermost consumer. -/
def exitType (c : Checker) : Option Ty :=
  c.exits.head?.bind (·.type)

/-- With a name unbound in the current frame. -/
def erased (c : Checker) (name : String) : Checker :=
  { c with scopes := c.scopes.erase name }

/-- With an entry that the given frame owns copied to the current frame, if the checker does so. -/
def copying (c : Checker) (name : String) (entry : Entry Ty) (frame : Nat) : Checker :=
  if c.copyAssigned ∧ frame ≠ c.scopes.depth then
    { c with scopes := c.scopes.insert name entry }
  else c

@[simp] theorem errors_copying (c : Checker) (name : String) (entry : Entry Ty) (frame : Nat) :
    (c.copying name entry frame).errors = c.errors := by
  unfold copying
  split <;> rfl

end Checker

namespace CheckM

variable {α β : Type}

/-- A step of the checker is taken by the checker as it is. -/
theorem liftM_step (x : CheckM α) : (liftM x : CheckM α) = x := rfl

theorem run_bind (x : CheckM α) (f : α → CheckM β) (c : Checker) :
    (x >>= f).run c = (f (x.run c).1).run (x.run c).2 := rfl

theorem run_pure (a : α) (c : Checker) : (pure a : CheckM α).run c = (a, c) := rfl

theorem run_get_bind (f : Checker → CheckM α) (c : Checker) : (get >>= f).run c = (f c).run c := rfl

theorem run_modify (f : Checker → Checker) (c : Checker) :
    (modify f : CheckM Unit).run c = ((), f c) := rfl

theorem run_reportIf (reason : Prop) [Decidable reason] (cause : TypeError) (span : Span)
    (next : Unit → CheckM α) (c : Checker) :
    (if reason then report cause span >>= next else next ()).run c =
      (next ()).run (c.notedIf reason cause span) := by
  unfold Checker.notedIf
  split <;> rfl

/-- The usual way to complain about an expression: as a step of whatever checks it. -/
theorem run_complainIf (reason : Prop) [Decidable reason] (cause : TypeError) (span : Span)
    (next : Unit → CheckM α) (c : Checker) :
    (if reason then liftM (report cause span) >>= next else next ()).run c =
      (next ()).run (c.notedIf reason cause span) :=
  run_reportIf reason cause span next c

theorem run_settle (verdict : Verdict) (span : Span) (c : Checker) :
    (settle verdict span).run c =
      (verdict.type, verdict.complaint.elim c fun complaint => c.noted complaint span) := by
  obtain ⟨type, complaint⟩ := verdict
  cases complaint <;> rfl

theorem run_nested (span : Span) (node : CheckM (Control Ty)) (c : Checker) :
    (nested span node).run c =
      if maxNesting ≤ c.depth then (.normal .none, c.noted .tooDeep span)
      else ((node.run c.deeper).1, (node.run c.deeper).2.shallower) := by
  show (if maxNesting ≤ c.depth then _ else _ : CheckM (Control Ty)).run c = _
  split <;> rfl

theorem run_inScope (node : CheckM α) (c : Checker) :
    (inScope node).run c = ((node.run c.entered).1, (node.run c.entered).2.left) := rfl

theorem run_asValue (span : Span) (node : CheckM (Control Ty)) (c : Checker) :
    (asValue span node).run c =
      match (node.run c.opened).1, (node.run c.opened).2.exitType with
      | .normal type, some exit =>
        (type, (node.run c.opened).2.closed.notedIf (type ≠ exit) (.exitMismatch exit type) span)
      | result, _ => (result.value, (node.run c.opened).2.closed) := by
  show (match (node.run c.opened).1, (node.run c.opened).2.exitType with
      | .normal type, some exit => _
      | result, _ => pure result.value : CheckM Ty).run (node.run c.opened).2.closed = _
  split
  · exact run_reportIf ..
  · rfl

theorem run_recordExit_top {c : Checker} (top : c.exits = []) (type : Ty) (span : Span) :
    (recordExit type span).run c = ((), c) := by
  rw [recordExit, run_get_bind, top]
  rfl

section Inner

variable {c : Checker} {frame : ExitFrame} {frames : List ExitFrame}

theorem run_recordExit_unreachable (exits : c.exits = frame :: frames)
    (dead : frame.unreachable ≠ 0) (type : Ty) (span : Span) :
    (recordExit type span).run c = ((), c) := by
  rw [recordExit, run_get_bind, exits]
  show (if frame.unreachable = 0 then _ else _ : CheckM Unit).run c = _
  rw [if_neg dead]
  rfl

theorem run_recordExit_first (exits : c.exits = frame :: frames) (live : frame.unreachable = 0)
    (none : frame.type = none) (type : Ty) (span : Span) :
    (recordExit type span).run c =
      ((), { c with exits := { frame with type := some type } :: frames }) := by
  rw [recordExit, run_get_bind, exits]
  show (if frame.unreachable = 0 then _ else _ : CheckM Unit).run c = _
  rw [if_pos live, none]
  rfl

theorem run_recordExit_again {expected : Ty} (exits : c.exits = frame :: frames)
    (live : frame.unreachable = 0) (seen : frame.type = some expected) (type : Ty) (span : Span) :
    (recordExit type span).run c =
      ((), c.notedIf (expected ≠ type) (.exitMismatch expected type) span) := by
  rw [recordExit, run_get_bind, exits]
  show (if frame.unreachable = 0 then _ else _ : CheckM Unit).run c = _
  rw [if_pos live, seen]
  show (if expected ≠ type then _ else _ : CheckM Unit).run c = _
  unfold Checker.notedIf
  split <;> rfl

end Inner

theorem run_updateUnreachable_top {c : Checker} (top : c.exits = []) (f : Nat → Nat) :
    (updateUnreachable f).run c = ((), c) := by
  rw [updateUnreachable, run_modify, top]

theorem run_updateUnreachable_inner {c : Checker} {frame : ExitFrame} {frames : List ExitFrame}
    (exits : c.exits = frame :: frames) (f : Nat → Nat) :
    (updateUnreachable f).run c =
      ((), { c with exits := { frame with unreachable := f frame.unreachable } :: frames }) := by
  rw [updateUnreachable, run_modify, exits]

theorem run_lookup (ident : Ident) (c : Checker) :
    (lookup ident).run c =
      match c.scopes.find? ident.name with
      | some (entry, _) => (entry.payload, c)
      | none => (.none, c.noted (.identifierNotFound ident.name) ident.span) := by
  rw [lookup, run_get_bind]
  rcases c.scopes.find? ident.name with _ | ⟨entry, frame⟩ <;> rfl

theorem run_assign_unbound {c : Checker} {target : Ident}
    (unbound : c.scopes.find? target.name = none) (actual : Ty) (site : Unit → String)
    (span : Span) :
    (assign target actual site span).run c =
      (.none, c.noted (.identifierNotFound target.name) target.span) := by
  rw [assign, run_get_bind, unbound]
  rfl

theorem run_assign_bound {c : Checker} {target : Ident} {entry : Entry Ty} {frame : Nat}
    (bound : c.scopes.find? target.name = some (entry, frame)) (actual : Ty)
    (site : Unit → String) (span : Span) :
    (assign target actual site span).run c =
      (entry.payload,
        ((c.notedIf entry.isConst (.assignToConstant target.name) target.span).notedIf
          (actual ≠ entry.payload) (.mismatchedTypes entry.payload actual (site ())) span).copying
            target.name entry frame) := by
  rw [assign, run_get_bind, bound]
  show (if entry.isConst = true then _ else _ : CheckM Ty).run c = _
  rw [run_reportIf]
  show (if actual ≠ entry.payload then _ else _ : CheckM Ty).run _ = _
  rw [run_reportIf]
  rfl

theorem run_setAside (name : String) (c : Checker) :
    (setAside name).run c = (c.scopes.current.get? name, c.erased name) := rfl

theorem run_join (first other : Control Ty) (compare : Bool) (span : Span) (c : Checker) :
    (join first other compare span).run c =
      (if first.isSignal && other.isSignal then first else .normal .none,
        c.notedIf (compare ∧ first.value ≠ other.value)
          (.branchMismatch first.value other.value) span) := by
  show (if compare = true ∧ first.value ≠ other.value then _ else _ : CheckM (Control Ty)).run c = _
  rw [run_reportIf]
  rfl

end CheckM

end ExprLang
