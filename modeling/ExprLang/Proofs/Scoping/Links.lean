import ExprLang.Proofs.Scoping.Runs

set_option autoImplicit false

/-!
Scopes as linked frames. Numbered from the root inwards, the frames of a stack have links to the
frames below them; following the links is then going down the stack, and every step on linked frames
is a step on the stack.
-/

namespace ExprLang

instance {α : Type} : Scoping (FrameChain α) α where
  root := FrameChain.root
  depth := FrameChain.depth
  find? := FrameChain.find?
  step := FrameChain.step

namespace FrameChain

variable {α : Type}

/-- The root is around itself, and around each other frame is the one before it. -/
structure Linked (c : FrameChain α) : Prop where
  root : ∃ linked, c.frames[0]? = some linked ∧ linked.parent = 0
  parent (i : Nat) (linked : LinkedFrame α) : c.frames[i + 1]? = some linked → linked.parent = i

/-- Chains with the same frames and links are the same. -/
theorem ext_getElem? {c d : FrameChain α} (h : ∀ i : Nat, c.frames[i]? = d.frames[i]?) : c = d := by
  obtain ⟨frames, _, _⟩ := c
  obtain ⟨frames', _, _⟩ := d
  obtain rfl : frames = frames' := Array.ext_getElem? h
  rfl

end FrameChain

namespace Scopes

variable {α : Type}

/-- The frames, numbered from the root inwards and linked. -/
def links (s : Scopes α) : FrameChain α where
  frames := ((s.current :: s.outer).reverse.mapIdx fun i frame => ⟨frame, i - 1⟩).toArray
  nonempty := by
    rw [List.size_toArray, List.length_mapIdx, List.length_reverse]
    exact Nat.succ_pos _
  outward i h := by
    rw [List.getElem_toArray, List.getElem_mapIdx]
    exact Nat.sub_le i 1

variable (s : Scopes α)

theorem getElem?_links (i : Nat) :
    s.links.frames[i]? = ((s.current :: s.outer).reverse[i]?).map fun frame => ⟨frame, i - 1⟩ := by
  rw [links, List.getElem?_toArray, List.getElem?_mapIdx]

theorem size_links : s.links.frames.size = s.depth + 1 := by
  rw [links, List.size_toArray, List.length_mapIdx, List.length_reverse]
  rfl

theorem depth_links : s.links.depth = s.depth := by
  rw [FrameChain.depth, size_links, Nat.add_sub_cancel]

/-- What is below some frames of the stack comes first in number. -/
theorem getElem?_links_of_append {inner outer : List (Frame α)} {frame : Frame α}
    (h : s.current :: s.outer = inner ++ frame :: outer) :
    s.links.frames[outer.length]? = some ⟨frame, outer.length - 1⟩ := by
  have here : (inner ++ frame :: outer).reverse[outer.length]? = some frame := by
    rw [List.reverse_append, List.reverse_cons, List.append_assoc,
      List.getElem?_append_right (Nat.le_of_eq (List.length_reverse ..)), List.length_reverse,
      Nat.sub_self]
    rfl
  rw [getElem?_links, h, here, Option.map_some]

theorem getElem?_links_current :
    s.links.frames[s.depth]? = some ⟨s.current, s.depth - 1⟩ :=
  s.getElem?_links_of_append (List.nil_append _).symm

theorem linked_links : s.links.Linked := by
  constructor
  · cases here : s.links.frames[0]? with
    | none =>
      have size := Array.getElem?_eq_none_iff.1 here
      rw [size_links] at size
      exact absurd size (Nat.not_succ_le_zero _)
    | some linked =>
      rw [getElem?_links] at here
      obtain ⟨frame, -, rfl⟩ := Option.map_eq_some_iff.1 here
      exact ⟨_, rfl, rfl⟩
  · intro i linked here
    rw [getElem?_links] at here
    obtain ⟨frame, -, rfl⟩ := Option.map_eq_some_iff.1 here
    rfl

/-! ### Steps -/

theorem links_enter : s.links.enter = s.enter.links := by
  refine FrameChain.ext_getElem? fun i => ?_
  have below : (s.enter.current :: s.enter.outer).reverse =
      (s.current :: s.outer).reverse ++ [.empty] := List.reverse_cons ..
  have length : (s.current :: s.outer).reverse.length = s.depth + 1 := List.length_reverse ..
  rw [FrameChain.enter, Array.getElem?_push, size_links, depth_links, getElem?_links,
    getElem?_links, below, List.getElem?_append, length]
  split
  next last =>
    subst last
    rw [if_neg (Nat.lt_irrefl _), Nat.sub_self]
    rfl
  next other =>
    split
    next => rfl
    next outside =>
      have beyond : i - (s.depth + 1) = i - (s.depth + 2) + 1 := by omega
      rw [List.getElem?_eq_none (by omega), beyond]
      rfl

theorem links_exit : s.links.exit = s.exit.links := by
  obtain ⟨current, outer⟩ := s
  cases outer with
  | nil => exact dif_neg (Nat.not_lt_of_le (Nat.le_of_eq (size_links ⟨current, []⟩)))
  | cons frame frames =>
    have inside : 1 < (links ⟨current, frame :: frames⟩).frames.size := by
      rw [size_links]
      exact Nat.succ_lt_succ (Nat.succ_pos _)
    refine (dif_pos inside).trans (FrameChain.ext_getElem? fun i => ?_)
    have below : (current :: frame :: frames).reverse = (frame :: frames).reverse ++ [current] :=
      List.reverse_cons ..
    have length : (frame :: frames).reverse.length = frames.length + 1 := List.length_reverse ..
    have size : (links ⟨current, frame :: frames⟩).frames.size - 1 = frames.length + 1 :=
      depth_links ⟨current, frame :: frames⟩
    rw [Array.getElem?_pop, size, getElem?_links, getElem?_links]
    show (if i < frames.length + 1 then _ else none) = ((frame :: frames).reverse[i]?).map _
    split
    next inside => rw [below, List.getElem?_append_left (by omega)]
    next outside => rw [List.getElem?_eq_none (by omega), Option.map_none]

/-- To change a frame by its number is to change it in the stack. -/
theorem links_change {s t : Scopes α} {inner outer : List (Frame α)} {frame : Frame α}
    {f : Frame α → Frame α} (here : s.current :: s.outer = inner ++ frame :: outer)
    (there : t.current :: t.outer = inner ++ f frame :: outer) :
    s.links.change outer.length f = t.links := by
  have length : outer.reverse.length = outer.length := List.length_reverse
  have reverse (x : Frame α) :
      (inner ++ x :: outer).reverse = outer.reverse ++ x :: inner.reverse := by simp
  refine FrameChain.ext_getElem? fun i => ?_
  rw [FrameChain.change, Array.getElem?_modify, getElem?_links, getElem?_links, here, there,
    reverse, reverse]
  by_cases inside : i < outer.length
  · rw [List.getElem?_append_left (by omega), List.getElem?_append_left (by omega),
      if_neg (by omega)]
  · rw [List.getElem?_append_right (by omega), List.getElem?_append_right (by omega), length]
    split
    next same =>
      rw [same, Nat.sub_self]
      rfl
    next other =>
      have further : i - outer.length = i - (outer.length + 1) + 1 := by omega
      rw [further]
      rfl

theorem links_change_current (f : Frame α → Frame α) :
    s.links.change s.links.depth f = links { s with current := f s.current } := by
  rw [depth_links]
  exact links_change (List.nil_append (s.current :: s.outer)).symm rfl

/-- The innermost binding of a name stands in a frame that has only frames without one inside it. -/
theorem exists_of_findIn {name : String} {frames : List (Frame α)} {entry : Entry α} {owner : Nat}
    (found : findIn name frames = some (entry, owner)) :
    ∃ inner frame outer, frames = inner ++ frame :: outer ∧ frame.get? name = some entry ∧
      owner = outer.length ∧
      ∀ payload, setIn name payload frames = inner ++ frame.set name payload :: outer := by
  induction frames with
  | nil => cases found
  | cons first rest ih =>
    rw [findIn] at found
    cases here : first.get? name with
    | some _ =>
      rw [here] at found
      cases found
      refine ⟨[], first, rest, rfl, here, rfl, fun payload => ?_⟩
      rw [setIn, here, Option.isSome_some, if_pos rfl]
      rfl
    | none =>
      rw [here] at found
      obtain ⟨inner, frame, outer, rfl, bound, number, set⟩ := ih found
      refine ⟨first :: inner, frame, outer, rfl, bound, number, fun payload => ?_⟩
      rw [setIn, here, Option.isSome_none, if_neg Bool.false_ne_true, set]
      rfl

/-- The way out goes down the stack, and ends at the root. -/
theorem resolveFrom_links (name : String) (inner : List (Frame α)) (frame : Frame α)
    {outer : List (Frame α)} (h : s.current :: s.outer = inner ++ frame :: outer)
    (inside : outer.length < s.links.frames.size) :
    s.links.resolveFrom name outer.length inside = (findIn name (frame :: outer)).map Prod.snd := by
  obtain ⟨_, here⟩ := Array.getElem?_eq_some_iff.1 (s.getElem?_links_of_append h)
  induction outer generalizing inner frame with
  | nil =>
    rw [FrameChain.resolveFrom, findIn]
    simp only [here]
    cases frame.get? name <;> rfl
  | cons next outer ih =>
    have below : s.current :: s.outer = (inner ++ [frame]) ++ next :: outer := by
      rw [h, List.append_assoc]
      rfl
    obtain ⟨inside', there⟩ := Array.getElem?_eq_some_iff.1 (s.getElem?_links_of_append below)
    rw [FrameChain.resolveFrom, findIn]
    simp only [here]
    cases frame.get? name with
    | some _ => rfl
    | none =>
      have other : outer.length + 1 - 1 ≠ outer.length + 1 := by omega
      exact (if_neg other).trans (ih _ next below inside' inside' there)

theorem resolve_links (name : String) :
    s.links.resolve name = (s.find? name).map Prod.snd := by
  have current : s.current :: s.outer = [] ++ s.current :: s.outer := rfl
  simp only [FrameChain.resolve, depth_links]
  exact s.resolveFrom_links name [] s.current current _

theorem find?_links (name : String) : s.links.find? name = s.find? name := by
  rw [FrameChain.find?, resolve_links]
  cases found : s.find? name with
  | none => rfl
  | some binding =>
    obtain ⟨entry, owner⟩ := binding
    obtain ⟨inner, frame, outer, here, bound, rfl, -⟩ := exists_of_findIn found
    show (s.links.frames[outer.length]?.bind _ >>= _) = _
    rw [s.getElem?_links_of_append here, Option.bind_some, bound]
    rfl

/-- Without a binding there is nothing to write to. -/
theorem set_of_find?_eq_none {name : String} (payload : α) (unbound : s.find? name = none) :
    s.set name payload = s := by
  have rest (frames : List (Frame α)) (unbound : findIn name frames = none) :
      setIn name payload frames = frames := by
    induction frames with
    | nil => rfl
    | cons frame frames ih =>
      rw [findIn] at unbound
      cases here : frame.get? name with
      | some _ =>
        rw [here] at unbound
        cases unbound
      | none =>
        rw [here] at unbound
        rw [setIn, here, Option.isSome_none, if_neg Bool.false_ne_true, ih unbound]
  obtain ⟨current, outer⟩ := List.cons.inj ((s.frames_set name payload).trans (rest _ unbound))
  generalize s.set name payload = t at current outer
  cases t
  cases s
  cases current
  cases outer
  rfl

theorem links_set (name : String) (payload : α) :
    s.links.set name payload =
      ((s.find? name).map fun found => { found.1 with payload }, (s.set name payload).links) := by
  rw [FrameChain.set, find?_links]
  cases found : s.find? name with
  | some binding =>
    obtain ⟨entry, owner⟩ := binding
    obtain ⟨inner, frame, outer, here, bound, rfl, set⟩ := exists_of_findIn found
    have there : (s.set name payload).current :: (s.set name payload).outer =
        inner ++ frame.set name payload :: outer := by
      rw [frames_set, set]
    exact congrArg (Prod.mk _) (links_change here there)
  | none => rw [s.set_of_find?_eq_none payload found, Option.map_none]

/-- Scopes look like linked frames. -/
theorem view_links : Scoping.View (links : Scopes α → FrameChain α) where
  root := rfl
  depth := depth_links
  find? := find?_links
  step s t := by
    show s.links.step t = ((s.step t).1, (s.step t).2.links)
    cases t with
    | enter => rw [FrameChain.step, step, links_enter, depth_links]
    | exit => rw [FrameChain.step, step, links_exit]
    | add name entry => exact congrArg (Prod.mk _) (s.links_change_current _)
    | delete name =>
      rw [FrameChain.step, FrameChain.erase, links_change_current, depth_links,
        getElem?_links_current]
      rfl
    | get name => rw [FrameChain.step, step, find?_links]
    | write name payload => rw [FrameChain.step, step, links_set]

end Scopes

end ExprLang
