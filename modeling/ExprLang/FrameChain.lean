import ExprLang.Scope

set_option autoImplicit false

/-!
Frames that are linked by number. Every frame knows the number of the frame around it, and a name is
resolved by going from one frame to the next; the root is around itself, and there the way ends. No
link leads to a higher number, so it does end.
-/

namespace ExprLang

/-- A frame, and the number of the frame around it. -/
structure LinkedFrame (α : Type) where
  frame : Frame α
  parent : Nat

/-- Frames by their numbers. The current frame is the last one. -/
structure FrameChain (α : Type) where
  frames : Array (LinkedFrame α)
  nonempty : 0 < frames.size
  outward (number : Nat) (h : number < frames.size) : frames[number].parent ≤ number

/-- What scopes can be asked to do. -/
inductive ScopeStep (α : Type) where
  | enter
  | exit
  | add (name : String) (entry : Entry α)
  | delete (name : String)
  | get (name : String)
  | write (name : String) (payload : α)

/-- What they answer: the number of a new frame, an entry that was removed or changed, or a binding
with the frame that owns it. -/
inductive ScopeAnswer (α : Type) where
  | done
  | entered (frame : Nat)
  | entry (found : Option (Entry α))
  | binding (found : Option (Entry α × Nat))

namespace FrameChain

variable {α : Type}

/-- The root alone, with nothing bound. -/
def root : FrameChain α where
  frames := #[⟨.empty, 0⟩]
  nonempty := Nat.one_pos
  outward number h := by
    obtain rfl : number = 0 := Nat.lt_one_iff.1 h
    exact Nat.le_refl 0

/-- How many frames there are above the root; this also numbers the current frame. -/
def depth (c : FrameChain α) : Nat :=
  c.frames.size - 1

/-- Opens a frame inside the current one. -/
def enter (c : FrameChain α) : FrameChain α where
  frames := c.frames.push ⟨.empty, c.depth⟩
  nonempty := by
    rw [Array.size_push]
    exact Nat.succ_pos _
  outward number h := by
    rw [Array.getElem_push]
    split
    next inside => exact c.outward number inside
    next last =>
      show c.frames.size - 1 ≤ number
      omega

/-- Leaves the current frame; the root is never left. -/
def exit (c : FrameChain α) : FrameChain α :=
  if inside : 1 < c.frames.size then
    { frames := c.frames.pop
      nonempty := by
        rw [Array.size_pop]
        omega
      outward := fun number h => by
        rw [Array.getElem_pop]
        exact c.outward number _ }
  else c

/-- Changes one frame and keeps its link. -/
def change (c : FrameChain α) (number : Nat) (f : Frame α → Frame α) : FrameChain α where
  frames := c.frames.modify number fun linked => { linked with frame := f linked.frame }
  nonempty := by
    rw [Array.size_modify]
    exact c.nonempty
  outward other h := by
    rw [Array.size_modify] at h
    rw [Array.getElem_modify]
    split
    all_goals exact c.outward other h

/-- Binds a name in the current frame. -/
def insert (c : FrameChain α) (name : String) (entry : Entry α) : FrameChain α :=
  c.change c.depth (·.insert name entry)

/-- Unbinds a name in the current frame, and gives what it was bound to. -/
def erase (c : FrameChain α) (name : String) : Option (Entry α) × FrameChain α :=
  (c.frames[c.depth]?.bind (·.frame.get? name), c.change c.depth (·.erase name))

/-- The number of the frame that owns a name, if one does, on the way out from the given frame. -/
def resolveFrom (c : FrameChain α) (name : String) (number : Nat) (h : number < c.frames.size) :
    Option Nat :=
  if (c.frames[number].frame.get? name).isSome then
    some number
  else if c.frames[number].parent = number then
    none
  else
    have outward := c.outward number h
    c.resolveFrom name c.frames[number].parent (Nat.lt_of_le_of_lt outward h)
termination_by number
decreasing_by omega

/-- The number of the frame that owns a name, as seen from the current frame. -/
def resolve (c : FrameChain α) (name : String) : Option Nat :=
  c.resolveFrom name c.depth (Nat.sub_one_lt_of_lt c.nonempty)

/-- The innermost binding of a name, and the number of the frame that owns it. -/
def find? (c : FrameChain α) (name : String) : Option (Entry α × Nat) := do
  let owner ← c.resolve name
  let entry ← c.frames[owner]?.bind (·.frame.get? name)
  return (entry, owner)

/-- Writes to a name where it is bound, and gives the changed entry. -/
def set (c : FrameChain α) (name : String) (payload : α) : Option (Entry α) × FrameChain α :=
  match c.find? name with
  | some (entry, owner) => (some { entry with payload }, c.change owner (·.set name payload))
  | none => (none, c)

/-- Takes one step, and gives the answer to it. -/
def step (c : FrameChain α) : ScopeStep α → ScopeAnswer α × FrameChain α
  | .enter => (.entered c.enter.depth, c.enter)
  | .exit => (.done, c.exit)
  | .add name entry => (.done, c.insert name entry)
  | .delete name => (.entry (c.erase name).1, (c.erase name).2)
  | .get name => (.binding (c.find? name), c)
  | .write name payload => (.entry (c.set name payload).1, (c.set name payload).2)

end FrameChain

end ExprLang
