import ExprLang.Scope

set_option autoImplicit false

/-!
Two stacks of frames that stay in step. The left one may hold copies: entries of a frame that
repeat what the name means further out. Apart from copies, a frame binds the same names on both
sides, to entries of one kind whose payloads are related.
-/

namespace ExprLang

namespace Scopes

variable {α β : Type}

/-- The innermost entry of a name among frames. -/
def entryIn (name : String) (frames : List (Frame α)) : Option (Entry α) :=
  (findIn name frames).map Prod.fst

theorem entryIn_cons (name : String) (frame : Frame α) (frames : List (Frame α)) :
    entryIn name (frame :: frames) = (frame.get? name).or (entryIn name frames) := by
  simp only [entryIn, findIn]
  cases frame.get? name <;> simp

theorem entryIn_of_find? {s : Scopes α} {name : String} {entry : Entry α} {frame : Nat}
    (h : s.find? name = some (entry, frame)) :
    entryIn name (s.current :: s.outer) = some entry := by
  have found : findIn name (s.current :: s.outer) = some (entry, frame) := h
  simp only [entryIn, found, Option.map_some]

/-- An entry that some other frame owns is not bound in the current one. -/
theorem outer_of_find? {s : Scopes α} {name : String} {entry : Entry α} {frame : Nat}
    (h : s.find? name = some (entry, frame)) (other : frame ≠ s.depth) :
    s.current.get? name = none ∧ entryIn name s.outer = some entry := by
  have found : findIn name (s.current :: s.outer) = some (entry, frame) := h
  simp only [findIn] at found
  split at found
  · obtain ⟨_, rfl⟩ := Prod.mk.inj (Option.some.inj found)
    exact absurd rfl other
  · next unbound => exact ⟨unbound, by simp only [entryIn, found, Option.map_some]⟩

/-- The current frame has got copies of outer entries, and nothing else has changed. -/
structure Copied (s t : Scopes α) : Prop where
  outer : t.outer = s.outer
  current : ∀ name, t.current.get? name = s.current.get? name ∨
    s.current.get? name = none ∧ t.current.get? name = entryIn name s.outer

namespace Copied

theorem refl (s : Scopes α) : Copied s s :=
  ⟨rfl, fun _ => .inl rfl⟩

theorem trans {s t u : Scopes α} (first : Copied s t) (second : Copied t u) : Copied s u := by
  refine ⟨second.outer.trans first.outer, fun name => ?_⟩
  have one := first.current name
  have two := second.current name
  rw [first.outer] at two
  grind

theorem insert {s : Scopes α} {name : String} {entry : Entry α} {frame : Nat}
    (found : s.find? name = some (entry, frame)) (other : frame ≠ s.depth) :
    Copied s (s.insert name entry) := by
  obtain ⟨unbound, outside⟩ := outer_of_find? found other
  refine ⟨rfl, fun x => ?_⟩
  have bound := Frame.get?_insert s.current name x entry
  simp only [Scopes.insert]
  grind

end Copied

/-- One name in one frame, on both sides; `outer` is what the name means further out on the left.
A copy stands on the left only. -/
inductive Slot (R : α → β → Prop) (outer : Option (Entry α)) :
    Option (Entry α) → Option (Entry β) → Prop where
  | both {a : Entry α} {b : Entry β} (binding : b.binding = a.binding)
      (payload : R a.payload b.payload) : Slot R outer (some a) (some b)
  | neither : Slot R outer none none
  | copy {a : Entry α} (means : outer = some a) : Slot R outer (some a) none

theorem Slot.cases {R : α → β → Prop} {outer x : Option (Entry α)} {y : Option (Entry β)}
    (h : Slot R outer x y) :
    (∃ a b, x = some a ∧ y = some b ∧ b.binding = a.binding ∧ R a.payload b.payload) ∨
      (x = none ∧ y = none) ∨ ∃ a, x = some a ∧ y = none ∧ outer = some a := by
  cases h with
  | both binding payload => exact .inl ⟨_, _, rfl, rfl, binding, payload⟩
  | neither => exact .inr (.inl ⟨rfl, rfl⟩)
  | copy means => exact .inr (.inr ⟨_, rfl, rfl, means⟩)

/-- Frames in step, from the inside out. -/
inductive FramesInStep (R : α → β → Prop) : List (Frame α) → List (Frame β) → Prop where
  | nil : FramesInStep R [] []
  | cons {f : Frame α} {fs : List (Frame α)} {g : Frame β} {gs : List (Frame β)}
      (slots : ∀ name, Slot R (entryIn name fs) (f.get? name) (g.get? name))
      (rest : FramesInStep R fs gs) : FramesInStep R (f :: fs) (g :: gs)

/-- Scopes in step. -/
def InStep (R : α → β → Prop) (s : Scopes α) (t : Scopes β) : Prop :=
  FramesInStep R (s.current :: s.outer) (t.current :: t.outer)

variable {R : α → β → Prop}

/-- A name means the same on both sides: a copy never hides anything. -/
theorem FramesInStep.entryIn {fs : List (Frame α)} {gs : List (Frame β)}
    (h : FramesInStep R fs gs) (name : String) :
    Slot R none (Scopes.entryIn name fs) (Scopes.entryIn name gs) := by
  induction h with
  | nil => exact .neither
  | cons slots rest ih =>
    rw [entryIn_cons, entryIn_cons]
    rcases (slots name).cases with ⟨a, b, left, right, binding, payload⟩ | ⟨left, right⟩ |
      ⟨a, left, right, means⟩
    · rw [left, right]
      exact .both binding payload
    · rw [left, right]
      exact ih
    · rw [left, right, Option.some_or, Option.none_or, ← means]
      exact ih

theorem FramesInStep.setIn {fs : List (Frame α)} {gs : List (Frame β)}
    (h : FramesInStep R fs gs) {name : String} {a : Entry α} {payload : β}
    (means : Scopes.entryIn name fs = some a) (fits : R a.payload payload) :
    FramesInStep R fs (Scopes.setIn name payload gs) := by
  induction h with
  | nil => exact .nil
  | @cons f fs g gs slots rest ih =>
    rw [entryIn_cons] at means
    simp only [Scopes.setIn]
    rcases (slots name).cases with ⟨a', b, left, right, binding, -⟩ | ⟨left, right⟩ |
      ⟨a', left, right, outside⟩
    · obtain rfl : a' = a := by simpa [left] using means
      simp only [right, Option.isSome_some, ↓reduceIte]
      refine .cons (fun x => ?_) rest
      rw [Frame.get?_set]
      split
      next same =>
        rw [same, left, right]
        exact .both binding fits
      next => exact slots x
    · simp only [right, Option.isSome_none, Bool.false_eq_true, ↓reduceIte]
      exact .cons slots (ih (by simpa [left] using means))
    · obtain rfl : a' = a := by simpa [left] using means
      simp only [right, Option.isSome_none, Bool.false_eq_true, ↓reduceIte]
      exact .cons slots (ih outside)

namespace InStep

variable {s : Scopes α} {t : Scopes β}

theorem slots (h : InStep R s t) (name : String) :
    Slot R (entryIn name s.outer) (s.current.get? name) (t.current.get? name) := by
  cases h with
  | cons slots _ => exact slots name

theorem outer (h : InStep R s t) : FramesInStep R s.outer t.outer := by
  cases h with
  | cons _ rest => exact rest

theorem replaceCurrent (h : InStep R s t) {f : Frame α} {g : Frame β}
    (slots : ∀ name, Slot R (entryIn name s.outer) (f.get? name) (g.get? name)) :
    InStep R { s with current := f } { t with current := g } :=
  .cons slots h.outer

theorem root : InStep R (root : Scopes α) (root : Scopes β) :=
  .cons (fun _ => .neither) .nil

theorem enter (h : InStep R s t) : InStep R s.enter t.enter :=
  .cons (fun _ => .neither) h

/-- Leaving a scope on both sides; what happened in it does not matter. -/
theorem exit {f : Frame α} {fs : List (Frame α)} {s : Scopes α} {t : Scopes β}
    (h : FramesInStep R s.outer t.outer) (outer : s.outer = f :: fs) :
    InStep R s.exit t.exit := by
  rw [outer] at h
  match rest : t.outer, h with
  | _ :: _, h => simpa only [InStep, Scopes.exit, outer, rest] using h

theorem insert (h : InStep R s t) (name : String) {a : Entry α} {b : Entry β}
    (binding : b.binding = a.binding) (payload : R a.payload b.payload) :
    InStep R (s.insert name a) (t.insert name b) := by
  apply h.replaceCurrent
  intro x
  rw [Frame.get?_insert, Frame.get?_insert]
  split
  · exact .both binding payload
  · exact h.slots x

theorem erase (h : InStep R s t) (name : String) : InStep R (s.erase name) (t.erase name) := by
  apply h.replaceCurrent
  intro x
  rw [Frame.get?_erase, Frame.get?_erase]
  split
  · exact .neither
  · exact h.slots x

theorem set (h : InStep R s t) {name : String} {a : Entry α} {payload : β}
    (means : entryIn name (s.current :: s.outer) = some a) (fits : R a.payload payload) :
    InStep R s (t.set name payload) := by
  have stepped := FramesInStep.setIn h means fits
  simp only [InStep, Scopes.set, Scopes.setIn] at *
  split at stepped <;> simp_all

theorem copied (h : InStep R s t) {s' : Scopes α} (copied : Copied s s') : InStep R s' t := by
  obtain ⟨frame, frames⟩ := s'
  obtain rfl : frames = s.outer := copied.outer
  refine .cons (fun name => ?_) h.outer
  rcases copied.current name with same | ⟨unbound, means⟩
  · rw [same]
    exact h.slots name
  · rw [means]
    rcases (h.slots name).cases with ⟨a, b, left, right, -, -⟩ | ⟨left, right⟩ | ⟨a, left, right, -⟩
    · rw [unbound] at left
      cases left
    · rw [right]
      cases outside : entryIn name s.outer with
      | none => exact .neither
      | some a => exact .copy rfl
    · rw [unbound] at left
      cases left

end InStep

/-- What a row of entries, bound one after the other, leaves a name bound to. -/
def lastEntry (name : String) : List (String × Entry α) → Option (Entry α)
  | [] => none
  | (n, entry) :: rest => (lastEntry name rest).or (if n = name then some entry else none)

theorem get?_foldl_erase (names : List String) (s : Scopes α) (x : String) :
    (names.foldl erase s).current.get? x = if x ∈ names then none else s.current.get? x := by
  induction names generalizing s with
  | nil => simp
  | cons name rest ih =>
    rw [List.foldl_cons, ih, erase, Frame.get?_erase]
    simp only [List.mem_cons]
    grind

theorem outer_foldl_erase (names : List String) (s : Scopes α) :
    (names.foldl erase s).outer = s.outer := by
  induction names generalizing s with
  | nil => rfl
  | cons name rest ih => exact ih (s.erase name)

theorem get?_foldl_insert (aside : List (String × Entry α)) (s : Scopes α) (x : String) :
    (aside.foldl (fun s (name, entry) => s.insert name entry) s).current.get? x =
      (lastEntry x aside).or (s.current.get? x) := by
  induction aside generalizing s with
  | nil => rfl
  | cons pair rest ih =>
    rw [List.foldl_cons, ih]
    simp only [Scopes.insert, Frame.get?_insert, lastEntry]
    grind

theorem outer_foldl_insert (aside : List (String × Entry α)) (s : Scopes α) :
    (aside.foldl (fun s (name, entry) => s.insert name entry) s).outer = s.outer := by
  induction aside generalizing s with
  | nil => rfl
  | cons pair rest ih => exact ih (s.insert pair.1 pair.2)

theorem get?_restore (s : Scopes α) (names : List String) (aside : List (String × Entry α))
    (x : String) :
    (s.restore names aside).current.get? x =
      (lastEntry x aside).or (if x ∈ names then none else s.current.get? x) := by
  rw [restore, get?_foldl_insert, get?_foldl_erase]

@[simp] theorem outer_restore (s : Scopes α) (names : List String)
    (aside : List (String × Entry α)) : (s.restore names aside).outer = s.outer := by
  rw [restore, outer_foldl_insert, outer_foldl_erase]

/-- Adds to the entries that are set aside what a name was bound to, unless the name has come
before. -/
def setAsideFirst (earlier : List String) (name : String) (previous : Option (Entry α))
    (aside : List (String × Entry α)) : List (String × Entry α) :=
  match previous with
  | some entry => if name ∈ earlier then aside else (name, entry) :: aside
  | none => aside

/-- Entries set aside for some of the `names`, none of them for a name that came `earlier`. On the
left there may be copies of what a name means in the frames of `outer`. -/
structure AsideInStep (R : α → β → Prop) (outer : List (Frame α)) (earlier names : List String)
    (left : List (String × Entry α)) (right : List (String × Entry β)) : Prop where
  slots : ∀ name, Slot R (entryIn name outer) (lastEntry name left) (lastEntry name right)
  named : ∀ name, name ∉ names → lastEntry name left = none
  fresh : ∀ name ∈ earlier, lastEntry name left = none

namespace AsideInStep

variable {outer : List (Frame α)} {earlier names : List String}
  {left : List (String × Entry α)} {right : List (String × Entry β)}

theorem nil : AsideInStep R outer earlier [] [] [] :=
  ⟨fun _ => .neither, fun _ _ => rfl, fun _ _ => rfl⟩

theorem cons {name : String} {x : Option (Entry α)} {y : Option (Entry β)}
    (slot : Slot R (entryIn name outer) x y)
    (h : AsideInStep R outer (name :: earlier) names left right) :
    AsideInStep R outer earlier (name :: names) (setAsideFirst earlier name x left)
      (setAsideFirst earlier name y right) := by
  have free : lastEntry name left = none := h.fresh name (List.mem_cons_self ..)
  have free' : lastEntry name right = none := by
    rcases (h.slots name).cases with ⟨a, b, eq, -⟩ | ⟨-, eq⟩ | ⟨a, eq, -⟩
    · rw [free] at eq
      cases eq
    · exact eq
    · rw [free] at eq
      cases eq
  by_cases before : name ∈ earlier
  · -- the name has come before: nothing is added on either side
    have same : setAsideFirst earlier name x left = left := by
      cases x <;> simp [setAsideFirst, before]
    have same' : setAsideFirst earlier name y right = right := by
      cases y <;> simp [setAsideFirst, before]
    rw [same, same']
    refine ⟨h.slots, fun n out => h.named n ?_, fun n inside => h.fresh n ?_⟩
    · exact fun inside => out (List.mem_cons_of_mem _ inside)
    · exact List.mem_cons_of_mem _ inside
  · have entry : ∀ n, lastEntry n (setAsideFirst earlier name x left) =
        if n = name then x else lastEntry n left := by
      intro n
      cases x <;> simp only [setAsideFirst, before, ↓reduceIte, lastEntry] <;> grind
    have entry' : ∀ n, lastEntry n (setAsideFirst earlier name y right) =
        if n = name then y else lastEntry n right := by
      intro n
      cases y <;> simp only [setAsideFirst, before, ↓reduceIte, lastEntry] <;> grind
    constructor
    · intro n
      rw [entry, entry']
      split
      next same => rw [same]; exact slot
      next => exact h.slots n
    · intro n out
      rw [entry, if_neg (List.ne_of_not_mem_cons out)]
      exact h.named n fun inside => out (List.mem_cons_of_mem _ inside)
    · intro n inside
      have other : n ≠ name := fun same => before (same ▸ inside)
      rw [entry, if_neg other]
      exact h.fresh n (List.mem_cons_of_mem _ inside)

end AsideInStep

theorem InStep.restore {s : Scopes α} {t : Scopes β} {earlier names : List String}
    {left : List (String × Entry α)} {right : List (String × Entry β)} (h : InStep R s t)
    (aside : AsideInStep R s.outer earlier names left right) :
    InStep R (s.restore names left) (t.restore names right) := by
  have slots : ∀ x, Slot R (entryIn x s.outer) ((s.restore names left).current.get? x)
      ((t.restore names right).current.get? x) := by
    intro x
    rw [get?_restore, get?_restore]
    rcases (aside.slots x).cases with ⟨a, b, eq, eq', binding, payload⟩ | ⟨eq, eq'⟩ |
      ⟨a, eq, eq', means⟩
    · rw [eq, eq']
      exact .both binding payload
    · rw [eq, eq']
      split
      · exact .neither
      · exact h.slots x
    · have named : x ∈ names := by
        refine Classical.byContradiction fun out => ?_
        rw [aside.named x out] at eq
        cases eq
      rw [eq, eq', if_pos named, if_pos named]
      exact .copy means
  have frames := h.outer
  rw [← outer_restore s names left] at slots frames
  rw [← outer_restore t names right] at frames
  exact .cons slots frames

end Scopes

end ExprLang
