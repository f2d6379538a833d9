import ExprLang.FrameChain
import Mathlib.Data.Finmap

set_option autoImplicit false

/-!
Runs of steps on scopes, of whatever make. A view from one make to another under which each step
looks the same makes whole runs look the same. One such view takes scopes to a stack of finite maps,
which is all that they mean.
-/

namespace ExprLang

/-- Scopes that can be stepped through. -/
class Scoping (σ : Type) (α : outParam Type) where
  root : σ
  depth : σ → Nat
  find? : σ → String → Option (Entry α × Nat)
  step : σ → ScopeStep α → ScopeAnswer α × σ

namespace Scoping

variable {σ τ α : Type} [Scoping σ α] [Scoping τ α]

/-- The scopes after some steps. -/
def after (s : σ) : List (ScopeStep α) → σ
  | [] => s
  | t :: rest => after (step s t).2 rest

/-- What is seen of a run: the answer to each step, and how deep the current frame is then. -/
def seen (s : σ) : List (ScopeStep α) → List (ScopeAnswer α × Nat)
  | [] => []
  | t :: rest => ((step s t).1, depth (step s t).2) :: seen (step s t).2 rest

/-- What a step writes to frames up to the given one, if it does. -/
def written? (base : Nat) (s : σ) : ScopeStep α → Option (String × α)
  | .write name payload =>
    match find? s name with
    | some (_, owner) => if owner ≤ base then some (name, payload) else none
    | none => none
  | _ => none

/-- What a run writes to frames up to the given one. -/
def writes (base : Nat) (s : σ) : List (ScopeStep α) → List (String × α)
  | [] => []
  | t :: rest => (written? base s t).toList ++ writes base (step s t).2 rest

theorem after_append (s : σ) (first second : List (ScopeStep α)) :
    after s (first ++ second) = after (after s first) second := by
  induction first generalizing s with
  | nil => rfl
  | cons t rest ih => exact ih (step s t).2

/-- Seen through `f`, the scopes of one make are those of another. -/
structure View (f : σ → τ) : Prop where
  root : f root = root
  depth (s : σ) : depth (f s) = depth s
  find? (s : σ) (name : String) : find? (f s) name = find? s name
  step (s : σ) (t : ScopeStep α) : step (f s) t = ((step s t).1, f (step s t).2)

namespace View

variable {f : σ → τ} (view : View f)

include view

theorem after (s : σ) (steps : List (ScopeStep α)) :
    after (f s) steps = f (after s steps) := by
  induction steps generalizing s with
  | nil => rfl
  | cons t rest ih =>
    rw [Scoping.after, Scoping.after, view.step]
    exact ih (Scoping.step s t).2

theorem seen (s : σ) (steps : List (ScopeStep α)) : seen (f s) steps = seen s steps := by
  induction steps generalizing s with
  | nil => rfl
  | cons t rest ih =>
    rw [Scoping.seen, Scoping.seen, view.step]
    dsimp only
    rw [view.depth, ih]

theorem written? (base : Nat) (s : σ) (t : ScopeStep α) :
    written? base (f s) t = written? base s t := by
  cases t with
  | write name payload => rw [Scoping.written?, Scoping.written?, view.find?]
  | _ => rfl

theorem writes (base : Nat) (s : σ) (steps : List (ScopeStep α)) :
    writes base (f s) steps = writes base s steps := by
  induction steps generalizing s with
  | nil => rfl
  | cons t rest ih =>
    rw [Scoping.writes, Scoping.writes, view.written?, view.step]
    dsimp only
    rw [ih]

end View

end Scoping

/-! ### Scopes -/

namespace Scopes

variable {α : Type}

def step (s : Scopes α) : ScopeStep α → ScopeAnswer α × Scopes α
  | .enter => (.entered s.enter.depth, s.enter)
  | .exit => (.done, s.exit)
  | .add name entry => (.done, s.insert name entry)
  | .delete name => (.entry (s.current.get? name), s.erase name)
  | .get name => (.binding (s.find? name), s)
  | .write name payload =>
    (.entry ((s.find? name).map fun found => { found.1 with payload }), s.set name payload)

instance : Scoping (Scopes α) α where
  root := root
  depth := depth
  find? := find?
  step := step

end Scopes

/-! ### Stacks of maps -/

/-- A finite map from names to entries. -/
abbrev Bindings (α : Type) := Finmap fun _ : String => Entry α

/-- A stack of maps that is never empty: the top, and what is below from the top down. -/
structure MapStack (α : Type) where
  top : Bindings α
  below : List (Bindings α)

namespace MapStack

variable {α : Type}

def root : MapStack α :=
  ⟨∅, []⟩

def depth (s : MapStack α) : Nat :=
  s.below.length

def push (s : MapStack α) : MapStack α :=
  ⟨∅, s.top :: s.below⟩

def pop (s : MapStack α) : MapStack α :=
  match s.below with
  | [] => s
  | map :: maps => ⟨map, maps⟩

/-- The uppermost entry of a name, and how many maps are below the one that has it. -/
def lookupIn (name : String) : List (Bindings α) → Option (Entry α × Nat)
  | [] => none
  | map :: maps =>
    match map.lookup name with
    | some entry => some (entry, maps.length)
    | none => lookupIn name maps

def lookup (s : MapStack α) (name : String) : Option (Entry α × Nat) :=
  lookupIn name (s.top :: s.below)

/-- Changes the payload of the uppermost entry of a name. -/
def writeIn (name : String) (payload : α) : List (Bindings α) → List (Bindings α)
  | [] => []
  | map :: maps =>
    match map.lookup name with
    | some entry => map.insert name { entry with payload } :: maps
    | none => map :: writeIn name payload maps

def write (s : MapStack α) (name : String) (payload : α) : MapStack α :=
  match s.top.lookup name with
  | some entry => { s with top := s.top.insert name { entry with payload } }
  | none => { s with below := writeIn name payload s.below }

def step (s : MapStack α) : ScopeStep α → ScopeAnswer α × MapStack α
  | .enter => (.entered (s.depth + 1), s.push)
  | .exit => (.done, s.pop)
  | .add name entry => (.done, { s with top := s.top.insert name entry })
  | .delete name => (.entry (s.top.lookup name), { s with top := s.top.erase name })
  | .get name => (.binding (s.lookup name), s)
  | .write name payload =>
    (.entry ((s.lookup name).map fun found => { found.1 with payload }), s.write name payload)

instance : Scoping (MapStack α) α where
  root := root
  depth := depth
  find? := lookup
  step := step

end MapStack

/-! ### Frames as maps -/

namespace Frame

variable {α : Type}

/-- The map that a frame is. -/
def bindings (f : Frame α) : Bindings α :=
  (f.entries.map fun pair => (⟨pair.1, pair.2⟩ : Sigma fun _ : String => Entry α)).toFinmap

theorem lookup_bindings (f : Frame α) (name : String) : f.bindings.lookup name = f.get? name := by
  obtain ⟨entries⟩ := f
  rw [bindings, Finmap.dlookup_list_toFinmap, get?]
  induction entries with
  | nil => rfl
  | cons pair rest ih =>
    rw [List.map_cons, lookup]
    split
    next same =>
      subst same
      exact List.dlookup_cons_eq ..
    next other =>
      rw [List.dlookup_cons_ne _ _ fun same => other same.symm]
      exact ih

theorem bindings_insert (f : Frame α) (name : String) (entry : Entry α) :
    (f.insert name entry).bindings = f.bindings.insert name entry := by
  refine Finmap.ext_lookup fun other => ?_
  rw [lookup_bindings, get?_insert]
  split
  next same => rw [same, Finmap.lookup_insert]
  next distinct => rw [Finmap.lookup_insert_of_ne _ distinct, lookup_bindings]

theorem bindings_erase (f : Frame α) (name : String) :
    (f.erase name).bindings = f.bindings.erase name := by
  refine Finmap.ext_lookup fun other => ?_
  rw [lookup_bindings, get?_erase]
  split
  next same => rw [same, Finmap.lookup_erase]
  next distinct => rw [Finmap.lookup_erase_ne distinct, lookup_bindings]

theorem bindings_set {f : Frame α} {name : String} {entry : Entry α} (payload : α)
    (found : f.get? name = some entry) :
    (f.set name payload).bindings = f.bindings.insert name { entry with payload } := by
  refine Finmap.ext_lookup fun other => ?_
  rw [lookup_bindings, get?_set]
  split
  next same => rw [same, Finmap.lookup_insert, found, Option.map_some]
  next distinct => rw [Finmap.lookup_insert_of_ne _ distinct, lookup_bindings]

end Frame

namespace Scopes

variable {α : Type}

/-- The stack of maps that scopes are. -/
def maps (s : Scopes α) : MapStack α :=
  ⟨s.current.bindings, s.outer.map Frame.bindings⟩

theorem lookupIn_bindings (name : String) (frames : List (Frame α)) :
    MapStack.lookupIn name (frames.map Frame.bindings) = findIn name frames := by
  induction frames with
  | nil => rfl
  | cons frame frames ih =>
    rw [List.map_cons, MapStack.lookupIn, Frame.lookup_bindings, findIn]
    cases frame.get? name with
    | some entry => exact congrArg (fun n => some (entry, n)) (List.length_map _)
    | none => exact ih

theorem writeIn_bindings (name : String) (payload : α) (frames : List (Frame α)) :
    MapStack.writeIn name payload (frames.map Frame.bindings) =
      (setIn name payload frames).map Frame.bindings := by
  induction frames with
  | nil => rfl
  | cons frame frames ih =>
    rw [List.map_cons, MapStack.writeIn, Frame.lookup_bindings, setIn]
    cases found : frame.get? name with
    | none =>
      rw [Option.isSome_none, if_neg Bool.false_ne_true, List.map_cons, ← ih]
    | some entry =>
      rw [Option.isSome_some, if_pos rfl, List.map_cons, Frame.bindings_set payload found]

theorem maps_set (s : Scopes α) (name : String) (payload : α) :
    s.maps.write name payload = (s.set name payload).maps := by
  rw [MapStack.write, set]
  simp only [maps, Frame.lookup_bindings]
  cases found : s.current.get? name with
  | none =>
    rw [Option.isSome_none, if_neg Bool.false_ne_true]
    dsimp only
    rw [writeIn_bindings]
  | some entry =>
    rw [Option.isSome_some, if_pos rfl]
    dsimp only
    rw [Frame.bindings_set payload found]

theorem maps_exit (s : Scopes α) : s.maps.pop = s.exit.maps := by
  obtain ⟨current, outer⟩ := s
  cases outer <;> rfl

/-- Scopes look like a stack of maps. -/
theorem view_maps : Scoping.View (maps : Scopes α → MapStack α) where
  root := rfl
  depth s := List.length_map ..
  find? s name := lookupIn_bindings name (s.current :: s.outer)
  step s t := by
    have found (name : String) : s.maps.lookup name = s.find? name :=
      lookupIn_bindings name (s.current :: s.outer)
    show s.maps.step t = ((s.step t).1, (s.step t).2.maps)
    cases t with
    | enter =>
      have depth : s.maps.depth + 1 = s.enter.depth := congrArg (· + 1) (List.length_map ..)
      rw [MapStack.step, step, depth]
      rfl
    | exit => rw [MapStack.step, step, maps_exit]
    | add name entry =>
      rw [MapStack.step, step, insert, maps, maps, Frame.bindings_insert]
    | delete name =>
      rw [MapStack.step, step, erase, maps, maps, Frame.bindings_erase, Frame.lookup_bindings]
    | get name => rw [MapStack.step, step, found]
    | write name payload => rw [MapStack.step, step, found, maps_set]

end Scopes

end ExprLang
