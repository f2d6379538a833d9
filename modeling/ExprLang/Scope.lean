set_option autoImplicit false

/-!
Scopes: a stack of frames in which names are bound. The innermost binding of a name is the one that
counts; the outermost frame, the root, is always there.
-/

namespace ExprLang

/-- Whether a binding may be written to. -/
inductive Binding where
  | var | const
  deriving DecidableEq, Inhabited

def Binding.text : Binding → String
  | var => "var"
  | const => "const"

/-- What a name is bound to. -/
structure Entry (α : Type) where
  payload : α
  binding : Binding

def Entry.isConst {α : Type} (e : Entry α) : Bool :=
  e.binding == .const

/-- The names bound in one scope. -/
structure Frame (α : Type) where
  entries : List (String × Entry α)

namespace Frame

variable {α : Type}

def empty : Frame α := ⟨[]⟩

/-- The first entry for a name. -/
def lookup (name : String) : List (String × Entry α) → Option (Entry α)
  | [] => none
  | (n, e) :: rest => if n = name then some e else lookup name rest

def get? (f : Frame α) (name : String) : Option (Entry α) :=
  lookup name f.entries

def erase (f : Frame α) (name : String) : Frame α :=
  ⟨f.entries.filter (·.1 ≠ name)⟩

/-- Binds a name, in place of what it was bound to. -/
def insert (f : Frame α) (name : String) (entry : Entry α) : Frame α :=
  ⟨(name, entry) :: (f.erase name).entries⟩

/-- Changes what a bound name holds. -/
def set (f : Frame α) (name : String) (payload : α) : Frame α :=
  ⟨f.entries.map fun (n, e) => if n = name then (n, { e with payload }) else (n, e)⟩

@[simp] theorem get?_empty (name : String) : (empty : Frame α).get? name = none := rfl

theorem get?_erase (f : Frame α) (name other : String) :
    (f.erase name).get? other = if other = name then none else f.get? other := by
  obtain ⟨entries⟩ := f
  simp only [get?, erase]
  induction entries with
  | nil => simp [lookup]
  | cons pair rest ih => grind [lookup]

theorem get?_insert (f : Frame α) (name other : String) (entry : Entry α) :
    (f.insert name entry).get? other = if other = name then some entry else f.get? other := by
  have erased := get?_erase f name other
  grind [insert, get?, lookup]

theorem get?_set (f : Frame α) (name other : String) (payload : α) :
    (f.set name payload).get? other =
      if other = name then (f.get? name).map fun e => { e with payload } else f.get? other := by
  obtain ⟨entries⟩ := f
  simp only [get?, set]
  induction entries with
  | nil => simp [lookup]
  | cons pair rest ih => grind [lookup]

end Frame

/-- A stack of frames: the current one, and those around it from the inside out. -/
structure Scopes (α : Type) where
  current : Frame α
  outer : List (Frame α)

namespace Scopes

variable {α : Type}

/-- The root alone, with nothing bound. -/
def root : Scopes α := ⟨.empty, []⟩

/-- How many frames there are above the root; this also numbers the current frame. -/
def depth (s : Scopes α) : Nat :=
  s.outer.length

/-- Opens a frame inside the current one. -/
def enter (s : Scopes α) : Scopes α :=
  ⟨.empty, s.current :: s.outer⟩

/-- Leaves the current frame; the root is never left. -/
def exit (s : Scopes α) : Scopes α :=
  match s.outer with
  | [] => s
  | frame :: frames => ⟨frame, frames⟩

/-- Binds a name in the current frame. -/
def insert (s : Scopes α) (name : String) (entry : Entry α) : Scopes α :=
  { s with current := s.current.insert name entry }

/-- Unbinds a name in the current frame. -/
def erase (s : Scopes α) (name : String) : Scopes α :=
  { s with current := s.current.erase name }

/-- The innermost binding of a name among frames, and the number of the frame that owns it. -/
def findIn (name : String) : List (Frame α) → Option (Entry α × Nat)
  | [] => none
  | frame :: frames =>
    match frame.get? name with
    | some entry => some (entry, frames.length)
    | none => findIn name frames

/-- The innermost binding of a name, and the number of the frame that owns it. -/
def find? (s : Scopes α) (name : String) : Option (Entry α × Nat) :=
  findIn name (s.current :: s.outer)

/-- Changes what the innermost binding of a name holds. -/
def setIn (name : String) (payload : α) : List (Frame α) → List (Frame α)
  | [] => []
  | frame :: frames =>
    if (frame.get? name).isSome then frame.set name payload :: frames
    else frame :: setIn name payload frames

/-- Writes to a name where it is bound; without a binding nothing changes. -/
def set (s : Scopes α) (name : String) (payload : α) : Scopes α :=
  if (s.current.get? name).isSome then { s with current := s.current.set name payload }
  else { s with outer := setIn name payload s.outer }

theorem frames_set (s : Scopes α) (name : String) (payload : α) :
    (s.set name payload).current :: (s.set name payload).outer =
      setIn name payload (s.current :: s.outer) := by
  rw [Scopes.set, setIn]
  split <;> rfl

/-- Ends a stretch in which names of the current frame stood for something else: unbinds the names,
and binds again what had been set aside. -/
def restore (s : Scopes α) (names : List String) (aside : List (String × Entry α)) : Scopes α :=
  aside.foldl (fun s (name, entry) => s.insert name entry) (names.foldl erase s)

end Scopes

end ExprLang
