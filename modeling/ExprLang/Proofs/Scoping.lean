import ExprLang.Proofs.Scoping.Links

set_option autoImplicit false

/-!
A chain of linked frames is a stack of maps. Whatever steps have been taken from the root, the links
lead down to it, and everything that can be seen is what a stack of finite maps shows. What is done
in a frame that is left again shows outside in one way only: in what has been written to the entries
of the frames around it.
-/

namespace ExprLang

open Scoping

/-- With so many frames open before them, the steps leave these and all that they open themselves,
and no other. -/
def ScopeStep.balanced {α : Type} : Nat → List (ScopeStep α) → Bool
  | opened, [] => opened == 0
  | opened, .enter :: rest => balanced (opened + 1) rest
  | opened, .exit :: rest => opened != 0 && balanced (opened - 1) rest
  | opened, .add .. :: rest | opened, .delete _ :: rest | opened, .get _ :: rest
  | opened, .write .. :: rest => balanced opened rest

namespace Scopes

variable {α : Type}

/-! ### Frames inside others -/

theorem lt_of_findIn {name : String} {frames : List (Frame α)} {entry : Entry α} {owner : Nat}
    (found : findIn name frames = some (entry, owner)) : owner < frames.length := by
  obtain ⟨inner, frame, outer, rfl, -, rfl, -⟩ := exists_of_findIn found
  rw [List.length_append, List.length_cons]
  omega

/-- A name that inner frames bind is found, and written to, in them. -/
theorem findIn_append_of_some {name : String} {inner : List (Frame α)} {entry : Entry α}
    {owner : Nat} (found : findIn name inner = some (entry, owner)) (outer : List (Frame α)) :
    findIn name (inner ++ outer) = some (entry, owner + outer.length) ∧
      ∀ payload, setIn name payload (inner ++ outer) = setIn name payload inner ++ outer := by
  induction inner with
  | nil => cases found
  | cons frame inner ih =>
    rw [findIn] at found
    rw [List.cons_append, findIn]
    cases here : frame.get? name with
    | some _ =>
      rw [here] at found
      cases found
      refine ⟨by rw [List.length_append], fun payload => ?_⟩
      rw [setIn, setIn, here, Option.isSome_some, if_pos rfl, if_pos rfl, List.cons_append]
    | none =>
      rw [here] at found
      refine ⟨(ih found).1, fun payload => ?_⟩
      rw [setIn, setIn, here, Option.isSome_none, if_neg Bool.false_ne_true,
        if_neg Bool.false_ne_true, (ih found).2, List.cons_append]

/-- A name that inner frames do not bind is found, and written to, in the frames around them. -/
theorem findIn_append_of_none {name : String} {inner : List (Frame α)}
    (unbound : findIn name inner = none) (outer : List (Frame α)) :
    findIn name (inner ++ outer) = findIn name outer ∧
      ∀ payload, setIn name payload (inner ++ outer) = inner ++ setIn name payload outer := by
  induction inner with
  | nil => exact ⟨rfl, fun _ => rfl⟩
  | cons frame inner ih =>
    rw [findIn] at unbound
    rw [List.cons_append, findIn]
    cases here : frame.get? name with
    | some _ =>
      rw [here] at unbound
      cases unbound
    | none =>
      rw [here] at unbound
      refine ⟨(ih unbound).1, fun payload => ?_⟩
      rw [setIn, here, Option.isSome_none, if_neg Bool.false_ne_true, (ih unbound).2,
        List.cons_append]

theorem length_setIn (name : String) (payload : α) (frames : List (Frame α)) :
    (setIn name payload frames).length = frames.length := by
  induction frames with
  | nil => rfl
  | cons frame frames ih =>
    rw [setIn]
    split
    · rfl
    · rw [List.length_cons, List.length_cons, ih]

/-- Writing changes what one name holds, and neither its kind nor its frame. -/
theorem findIn_setIn (name other : String) (payload : α) (frames : List (Frame α)) :
    findIn name (setIn other payload frames) =
      if name = other then (findIn name frames).map fun found =>
        ({ found.1 with payload }, found.2)
      else findIn name frames := by
  induction frames with
  | nil => split <;> rfl
  | cons frame frames ih =>
    rw [setIn]
    by_cases same : name = other
    · subst same
      rw [if_pos rfl] at ih ⊢
      cases here : frame.get? name with
      | some entry =>
        rw [Option.isSome_some, if_pos rfl, findIn, findIn, Frame.get?_set, if_pos rfl, here]
        rfl
      | none =>
        rw [Option.isSome_none, if_neg Bool.false_ne_true, findIn, findIn, here]
        exact ih
    · rw [if_neg same] at ih ⊢
      split
      · rw [findIn, findIn, Frame.get?_set, if_neg same]
      · rw [findIn, findIn, ih, length_setIn]

/-- The frames after some writes. -/
def rewritten (frames : List (Frame α)) (writes : List (String × α)) : List (Frame α) :=
  writes.foldl (fun frames write => setIn write.1 write.2 frames) frames

theorem length_rewritten (frames : List (Frame α)) (writes : List (String × α)) :
    (rewritten frames writes).length = frames.length := by
  induction writes generalizing frames with
  | nil => rfl
  | cons write rest ih => exact (ih _).trans (length_setIn ..)

theorem rewritten_append (frames : List (Frame α)) (first second : List (String × α)) :
    rewritten frames (first ++ second) = rewritten (rewritten frames first) second :=
  List.foldl_append ..

/-- After some writes a name holds what was written to it last. -/
theorem findIn_rewritten (name : String) (frames : List (Frame α)) (writes : List (String × α)) :
    findIn name (rewritten frames writes) = (findIn name frames).map fun found =>
      ({ found.1 with payload := (writes.reverse.lookup name).getD found.1.payload }, found.2) := by
  induction writes using List.reverseRecOn with
  | nil => exact Option.map_id'.symm
  | append_singleton rest write ih =>
    obtain ⟨other, payload⟩ := write
    have last : rewritten frames (rest ++ [(other, payload)]) =
        setIn other payload (rewritten frames rest) := rewritten_append ..
    rw [last, findIn_setIn, ih, List.reverse_append, List.reverse_singleton, List.singleton_append,
      List.lookup_cons]
    by_cases same : name = other
    · rw [if_pos same, Option.map_map, beq_iff_eq.2 same]
      rfl
    · rw [if_neg same, beq_eq_false_iff_ne.2 same]

/-! ### Runs inside a frame -/

/-- Inside of the `outer` frames there is the current frame, with so many others between. -/
def Within (outer : List (Frame α)) (opened : Nat) (s : Scopes α) : Prop :=
  ∃ inner, inner.length = opened + 1 ∧ s.current :: s.outer = inner ++ outer

namespace Within

variable {outer : List (Frame α)} {opened : Nat} {s : Scopes α}

theorem enter (h : s.Within outer opened) : s.enter.Within outer (opened + 1) := by
  obtain ⟨inner, length, frames⟩ := h
  exact ⟨.empty :: inner, congrArg (· + 1) length, congrArg (List.cons _) frames⟩

theorem exit (h : s.Within outer (opened + 1)) : s.exit.Within outer opened := by
  obtain ⟨_ | ⟨first, _ | ⟨second, inner⟩⟩, length, frames⟩ := h
  · cases length
  · cases length
  · obtain ⟨-, below⟩ := List.cons.inj frames
    refine ⟨second :: inner, Nat.succ.inj length, ?_⟩
    rw [Scopes.exit, below]
    rfl

theorem change (h : s.Within outer opened) (frame : Frame α) :
    Within outer opened { s with current := frame } := by
  obtain ⟨_ | ⟨first, inner⟩, length, frames⟩ := h
  · cases length
  · obtain ⟨-, below⟩ := List.cons.inj frames
    exact ⟨frame :: inner, length, congrArg (List.cons frame) below⟩

/-- A write goes to the outer frames only if no other frame binds the name. -/
theorem write {base : Nat} (h : s.Within outer opened) (size : outer.length = base + 1)
    (name : String) (payload : α) :
    (s.set name payload).Within
      (rewritten outer (written? base s (.write name payload)).toList) opened := by
  obtain ⟨inner, length, frames⟩ := h
  have lookup : Scoping.find? s name = findIn name (inner ++ outer) := congrArg (findIn name) frames
  rw [written?, lookup]
  cases found : findIn name inner with
  | some binding =>
    obtain ⟨entry, owner⟩ := binding
    obtain ⟨here, set⟩ := findIn_append_of_some found outer
    have inside : ¬ owner + outer.length ≤ base := by omega
    simp only [here, if_neg inside, Option.toList_none]
    refine ⟨setIn name payload inner, (length_setIn ..).trans length, ?_⟩
    rw [frames_set, frames, set]
    rfl
  | none =>
    obtain ⟨here, set⟩ := findIn_append_of_none found outer
    rw [here]
    cases outside : findIn name outer with
    | some binding =>
      obtain ⟨entry, owner⟩ := binding
      have lt := lt_of_findIn outside
      have le : owner ≤ base := by omega
      simp only [if_pos le, Option.toList_some]
      refine ⟨inner, length, ?_⟩
      rw [frames_set, frames, set]
      rfl
    | none =>
      have unbound : s.find? name = none := lookup.trans (here.trans outside)
      rw [s.set_of_find?_eq_none payload unbound]
      exact ⟨inner, length, frames⟩

/-- Steps that are balanced change the outer frames by what they write to them. -/
theorem after {base : Nat} {steps : List (ScopeStep α)} (h : s.Within outer opened)
    (size : outer.length = base + 1) (balanced : ScopeStep.balanced opened steps = true) :
    (after s steps).Within (rewritten outer (writes base s steps)) 0 := by
  induction steps generalizing s outer opened with
  | nil =>
    obtain rfl : opened = 0 := beq_iff_eq.1 balanced
    exact h
  | cons t rest ih =>
    rw [writes, rewritten_append]
    cases t with
    | enter => exact ih h.enter size balanced
    | exit =>
      cases opened with
      | zero => cases balanced
      | succ opened => exact ih h.exit size balanced
    | add name entry => exact ih (h.change _) size balanced
    | delete name => exact ih (h.change _) size balanced
    | get name => exact ih h size balanced
    | write name payload =>
      refine ih (h.write size name payload) ?_ balanced
      rw [length_rewritten, size]

end Within

theorem frames_exit {s : Scopes α} {frame : Frame α} {frames : List (Frame α)}
    (below : s.outer = frame :: frames) : s.exit.current :: s.exit.outer = s.outer := by
  rw [exit, below]

/-- A frame that is entered and left again leaves nothing behind but what was written to entries
outside of it. -/
theorem find?_after_balanced (s : Scopes α) {inner : List (ScopeStep α)}
    (balanced : ScopeStep.balanced 0 inner = true) (name : String) :
    (after s (.enter :: inner ++ [.exit])).find? name = (s.find? name).map fun found =>
      ({ found.1 with
          payload := ((writes s.depth s.enter inner).reverse.lookup name).getD found.1.payload },
        found.2) := by
  have opened : s.enter.Within (s.current :: s.outer) 0 := ⟨[.empty], rfl, rfl⟩
  obtain ⟨_ | ⟨top, _ | _⟩, single, frames⟩ := opened.after rfl balanced
  · cases single
  · have below : (after s.enter inner).outer =
        rewritten (s.current :: s.outer) (writes s.depth s.enter inner) := (List.cons.inj frames).2
    have left : after s (.enter :: inner ++ [.exit]) = (after s.enter inner).exit :=
      after_append s (.enter :: inner) [.exit]
    have some : (after s.enter inner).outer ≠ [] := by
      intro none
      have length := congrArg List.length (below.symm.trans none)
      rw [length_rewritten] at length
      cases length
    obtain ⟨frame, rest, outer⟩ := List.exists_cons_of_ne_nil some
    rw [left, find?, frames_exit outer, below]
    exact findIn_rewritten name (s.current :: s.outer) _
  · cases single

end Scopes

namespace FrameChain

variable {α : Type}

/-- The chain that steps lead to from the root. -/
def reached (steps : List (ScopeStep α)) : FrameChain α :=
  after root steps

theorem reached_eq_links (steps : List (ScopeStep α)) :
    reached steps = (after (Scopes.root : Scopes α) steps).links :=
  Scopes.view_links.after Scopes.root steps

theorem find?_reached (steps : List (ScopeStep α)) (name : String) :
    (reached steps).find? name = (after (Scopes.root : Scopes α) steps).find? name := by
  rw [reached_eq_links, Scopes.find?_links]

theorem writes_reached (base : Nat) (steps inner : List (ScopeStep α)) :
    writes base (reached steps).enter inner =
      writes base (after (Scopes.root : Scopes α) steps).enter inner := by
  rw [reached_eq_links, Scopes.links_enter, Scopes.view_links.writes]

end FrameChain

/-- After any steps from the root, there is a root that is around itself, and around each other
frame is the one before it. On this way a name resolves to the frame of its binding, and to none
where it has no binding. The answers to the steps, and the number of the current frame after each of
them, are those of a stack of finite maps, and of the scopes that checker and machine have. Steps
that open a frame and leave it again, and are balanced in between, change what can be seen by the
payloads that they write to frames outside, and by nothing else. -/
theorem frame_chain_is_a_stack {α : Type} (steps : List (ScopeStep α)) :
    (FrameChain.reached steps).Linked ∧ 0 < (FrameChain.reached steps).frames.size ∧
    (∀ name, (FrameChain.reached steps).resolve name =
      ((FrameChain.reached steps).find? name).map Prod.snd) ∧
    seen FrameChain.root steps = seen MapStack.root steps ∧
    seen Scopes.root steps = seen MapStack.root steps ∧
    ∀ inner, ScopeStep.balanced 0 inner = true → ∀ name,
      (FrameChain.reached (steps ++ .enter :: inner ++ [.exit])).find? name =
        ((FrameChain.reached steps).find? name).map fun found =>
          ({ found.1 with payload := ((writes (FrameChain.reached steps).depth
              (FrameChain.reached steps).enter inner).reverse.lookup name).getD found.1.payload },
            found.2) := by
  have links := FrameChain.reached_eq_links steps
  have maps : seen Scopes.root steps = seen MapStack.root steps :=
    (Scopes.view_maps.seen Scopes.root steps).symm
  refine ⟨?_, ?_, ?_, (Scopes.view_links.seen Scopes.root steps).trans maps, maps, ?_⟩
  · rw [links]
    exact Scopes.linked_links _
  · exact (FrameChain.reached steps).nonempty
  · intro name
    rw [links, Scopes.resolve_links, Scopes.find?_links]
  · intro inner balanced name
    rw [FrameChain.writes_reached, FrameChain.find?_reached, FrameChain.find?_reached,
      List.append_assoc, after_append, links, Scopes.depth_links]
    exact Scopes.find?_after_balanced _ balanced name

/-- A write from inside reaches the outer entry; the constant that then hides it, and the write that
finds this constant, are gone with the frame. -/
theorem inner_frame_leaves_a_write :
    ScopeStep.balanced 0 [.write "x" 2, .add "x" ⟨5, .const⟩, .enter, .write "x" 7, .exit] = true ∧
    (FrameChain.reached ([.exit, .add "x" ⟨1, .var⟩] ++
      .enter :: [.write "x" 2, .add "x" ⟨5, .const⟩, .enter, .write "x" 7, .exit] ++
      [.exit])).find? "x" = some (⟨2, .var⟩, 0) := by
  have balanced : ScopeStep.balanced 0
      [.write "x" 2, .add "x" ⟨5, .const⟩, .enter, .write "x" 7, .exit] = true := rfl
  obtain ⟨-, -, -, -, -, inside⟩ := frame_chain_is_a_stack [.exit, .add "x" ⟨1, .var⟩]
  refine ⟨balanced, (inside _ balanced "x").trans ?_⟩
  rw [FrameChain.writes_reached, FrameChain.find?_reached, FrameChain.reached_eq_links,
    Scopes.depth_links]
  rfl

end ExprLang
