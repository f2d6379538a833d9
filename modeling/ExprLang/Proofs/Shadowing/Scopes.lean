import ExprLang.Proofs.ScopeAgreement
import ExprLang.Proofs.Subexpr
import Mathlib.Order.Defs.Unbundled

set_option autoImplicit false

/-!
Names that stand for something else for a while. The variables of a loop take the places of entries
of the current frame; what they displace is set aside, each name once, and bound again in the end.
-/

namespace ExprLang

namespace Scopes

variable {α : Type}

/-- Every frame binds what it bound before. -/
structure Unchanged (s t : Scopes α) : Prop where
  outer : t.outer = s.outer
  current : ∀ name, t.current.get? name = s.current.get? name

namespace Unchanged

variable {s t u : Scopes α}

theorem refl (s : Scopes α) : Unchanged s s :=
  ⟨rfl, fun _ => rfl⟩

theorem trans (first : Unchanged s t) (second : Unchanged t u) : Unchanged s u :=
  ⟨second.outer.trans first.outer, fun name => (second.current name).trans (first.current name)⟩

/-- To leave a frame brings back the one around it, which has not been touched. -/
theorem exit (h : Unchanged s.enter t) : Unchanged s t.exit := by
  have left : t.exit = s := by
    have outer : t.outer = s.current :: s.outer := h.outer
    rw [Scopes.exit, outer]
  rw [left]
  exact refl s

end Unchanged

instance : IsPreorder (Scopes α) Unchanged where
  refl := .refl
  trans _ _ _ := .trans

/-- The current frame is as deep as before, and binds the names that it bound before. -/
structure SameNames (s t : Scopes α) : Prop where
  depth : t.depth = s.depth
  bound : ∀ name, (t.current.get? name).isSome = (s.current.get? name).isSome

instance : IsPreorder (Scopes α) SameNames where
  refl _ := ⟨rfl, fun _ => rfl⟩
  trans _ _ _ first second :=
    ⟨second.depth.trans first.depth, fun name => (second.bound name).trans (first.bound name)⟩

/-- From `s` to `t`, variables with these `names` have been declared in the current frame, after
others with names that came `earlier`. Set aside is what the names were bound to, where they are
new. -/
structure Shadows (earlier names : List String) (s : Scopes α) (aside : List (String × Entry α))
    (t : Scopes α) : Prop where
  outer : t.outer = s.outer
  others : ∀ x, x ∉ names → t.current.get? x = s.current.get? x
  entries : ∀ x, lastEntry x aside =
    if x ∈ names ∧ x ∉ earlier then s.current.get? x else none

namespace Shadows

variable {earlier names : List String} {s t u : Scopes α} {aside : List (String × Entry α)}

theorem nil (s : Scopes α) : Shadows earlier [] s [] s := by
  refine ⟨rfl, fun _ _ => rfl, ?_⟩
  intro x
  simp [lastEntry]

theorem lastEntry_setAsideFirst {name : String} (free : lastEntry name aside = none)
    (previous : Option (Entry α)) (x : String) :
    lastEntry x (setAsideFirst earlier name previous aside) =
      if x = name ∧ name ∉ earlier then previous else lastEntry x aside := by
  cases previous with
  | none =>
    rw [setAsideFirst]
    split
    next same => rw [same.1, free]
    next => rfl
  | some entry =>
    by_cases before : name ∈ earlier
    · simp [setAsideFirst, before]
    · simp only [setAsideFirst, before, if_false, lastEntry, not_false_eq_true, and_true]
      by_cases same : x = name
      · rw [same, free]
        simp
      · simp [same, Ne.symm same]

/-- One more variable in front. Its name is unbound while its initial value is found, and bound when
the others come. -/
theorem cons {name : String} {entry : Entry α} (initial : Unchanged (s.erase name) t)
    (rest : Shadows (name :: earlier) names (t.insert name entry) aside u) :
    Shadows earlier (name :: names) s (setAsideFirst earlier name (s.current.get? name) aside)
      u := by
  have other : ∀ x, x ≠ name → (t.insert name entry).current.get? x = s.current.get? x := by
    intro x distinct
    have erased : (s.erase name).current.get? x = s.current.get? x := by
      rw [erase, Frame.get?_erase, if_neg distinct]
    rw [insert, Frame.get?_insert, if_neg distinct, initial.current, erased]
  have free : lastEntry name aside = none := by
    rw [rest.entries]
    simp
  constructor
  · exact rest.outer.trans initial.outer
  · intro x out
    rw [rest.others x (List.not_mem_of_not_mem_cons out), other x (List.ne_of_not_mem_cons out)]
  · intro x
    rw [lastEntry_setAsideFirst free]
    by_cases same : x = name
    · subst same
      by_cases before : x ∈ earlier
      · simp [before, free]
      · simp [before]
    · rw [if_neg fun both => same both.1, rest.entries, other x same]
      simp [same]

/-- In the end the names are bound to what they were bound to at first, whatever has become of
them; the other names are left as they are by then. -/
theorem get?_restore (h : Shadows [] names s aside t) (u : Scopes α) (x : String) :
    (u.restore names aside).current.get? x =
      if x ∈ names then s.current.get? x else u.current.get? x := by
  rw [Scopes.get?_restore, h.entries]
  by_cases inside : x ∈ names
  · simp [inside]
  · simp [inside]

theorem restore (h : Shadows [] names s aside t) (after : Unchanged t u) :
    Unchanged s (u.restore names aside) := by
  constructor
  · rw [outer_restore, after.outer, h.outer]
  · intro x
    rw [h.get?_restore]
    split
    next => rfl
    next out => rw [after.current, h.others x out]

end Shadows

end Scopes

/-- Whether the expression itself binds a name for good, or writes to one. -/
def Expr.binds : Expr → Bool
  | declare .. => true
  | assign .. => true
  | _ => false

/-- No declaration and no assignment stands anywhere in the expression; loops may have variables. -/
def Expr.Bindless (e : Expr) : Prop :=
  e.Everywhere (·.binds = false)

instance : DecidablePred Expr.Bindless :=
  fun e => inferInstanceAs (Decidable (e.Everywhere _))

end ExprLang
