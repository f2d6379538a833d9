import ExprLang.Scope
import ExprLang.Value.Basic
import Mathlib.Data.List.Forall2

set_option autoImplicit false

/-!
Labels for entries. A label says what an entry was bound as, and stays with the entry wherever it
goes; scopes of labels go through the same changes as the scopes themselves, but for assignments.
-/

namespace ExprLang

/-- What an entry was bound as: the type that was declared for it, and its first value. -/
structure Label where
  type : Ty
  value : Value

/-- The entry still is as it was bound: a constant has the same value, a variable one of the same
type. -/
structure Entry.Fits (l : Entry Label) (e : Entry Value) : Prop where
  binding : e.binding = l.binding
  type : e.payload.type = l.payload.type
  value : l.binding = .const → e.payload = l.payload.value

/-- The frame binds the names that have labels, to entries that fit. -/
def Frame.Tracks (f : Frame Label) (g : Frame Value) : Prop :=
  ∀ name, Option.Rel Entry.Fits (f.get? name) (g.get? name)

namespace Frame.Tracks

variable {f : Frame Label} {g : Frame Value}

theorem empty : Tracks Frame.empty Frame.empty :=
  fun _ => .none

theorem insert (h : f.Tracks g) (name : String) {l : Entry Label} {e : Entry Value}
    (fits : l.Fits e) : (f.insert name l).Tracks (g.insert name e) := by
  intro x
  rw [get?_insert, get?_insert]
  split
  · exact .some fits
  · exact h x

theorem erase (h : f.Tracks g) (name : String) : (f.erase name).Tracks (g.erase name) := by
  intro x
  rw [get?_erase, get?_erase]
  split
  · exact .none
  · exact h x

/-- A variable may change within its type. -/
theorem set (h : f.Tracks g) {name : String} {e : Entry Value} (found : g.get? name = some e)
    (writable : e.isConst = false) {v : Value} (type : e.payload.type = v.type) :
    f.Tracks (g.set name v) := by
  intro x
  rw [get?_set]
  split
  next same =>
    have before := h x
    rw [same, found] at before
    rw [same, found]
    generalize f.get? name = l at before
    cases before with
    | some fits =>
      refine .some ⟨fits.binding, type.symm.trans fits.type, fun const => ?_⟩
      rw [Entry.isConst, fits.binding, const] at writable
      cases writable
  next => exact h x

end Frame.Tracks

namespace Scopes

/-- All frames bind the names that have labels, to entries that fit. -/
def Tracks (s : Scopes Label) (t : Scopes Value) : Prop :=
  List.Forall₂ Frame.Tracks (s.current :: s.outer) (t.current :: t.outer)

theorem tracks_setIn {fs : List (Frame Label)} {gs : List (Frame Value)}
    (h : List.Forall₂ Frame.Tracks fs gs) {name : String} {e : Entry Value} {frame : Nat}
    (found : findIn name gs = some (e, frame)) (writable : e.isConst = false) {v : Value}
    (type : e.payload.type = v.type) : List.Forall₂ Frame.Tracks fs (setIn name v gs) := by
  induction h with
  | nil => exact .nil
  | cons first rest ih =>
    rw [findIn] at found
    rw [setIn]
    split at found
    next entry here =>
      cases found
      rw [here, Option.isSome_some, if_pos rfl]
      exact .cons (first.set here writable type) rest
    next absent =>
      rw [absent, Option.isSome_none, if_neg Bool.false_ne_true]
      exact .cons first (ih found)

/-- What a loop has set aside: a name, its entry, and the label of the entry. -/
abbrev Aside := List (String × Entry Value × Option (Entry Label))

def Aside.entries (aside : Aside) : List (String × Entry Value) :=
  aside.map fun (name, entry, _) => (name, entry)

def Aside.labels (aside : Aside) : List (String × Entry Label) :=
  aside.filterMap fun (name, _, label?) => label?.map (name, ·)

/-- The entry has a label, and fits it. -/
def Aside.EntryFits (kept : Entry Value × Option (Entry Label)) : Prop :=
  ∃ l, kept.2 = some l ∧ l.Fits kept.1

/-- Every entry that is set aside has a label that it fits. -/
def Aside.Fits (aside : Aside) : Prop :=
  ∀ a ∈ aside, Aside.EntryFits a.2

namespace Tracks

variable {s : Scopes Label} {t : Scopes Value}

theorem current (h : s.Tracks t) : s.current.Tracks t.current :=
  (List.forall₂_cons.1 h).1

theorem outer (h : s.Tracks t) : List.Forall₂ Frame.Tracks s.outer t.outer :=
  (List.forall₂_cons.1 h).2

theorem enter (h : s.Tracks t) : s.enter.Tracks t.enter :=
  .cons .empty h

theorem exit (h : s.Tracks t) : s.exit.Tracks t.exit := by
  obtain ⟨f, fs⟩ := s
  obtain ⟨g, gs⟩ := t
  have outer := h.outer
  cases outer with
  | nil => exact h
  | cons first rest => exact .cons first rest

theorem insert (h : s.Tracks t) (name : String) {l : Entry Label} {e : Entry Value}
    (fits : l.Fits e) : (s.insert name l).Tracks (t.insert name e) :=
  .cons (h.current.insert name fits) h.outer

theorem erase (h : s.Tracks t) (name : String) : (s.erase name).Tracks (t.erase name) :=
  .cons (h.current.erase name) h.outer

theorem set (h : s.Tracks t) {name : String} {e : Entry Value} {frame : Nat}
    (found : t.find? name = some (e, frame)) (writable : e.isConst = false) {v : Value}
    (type : e.payload.type = v.type) : s.Tracks (t.set name v) := by
  rw [Tracks, frames_set]
  exact tracks_setIn h found writable type

theorem eraseAll (h : s.Tracks t) (names : List String) :
    (names.foldl Scopes.erase s).Tracks (names.foldl Scopes.erase t) := by
  induction names generalizing s t with
  | nil => exact h
  | cons name names ih => exact ih (h.erase name)

theorem restore (h : s.Tracks t) (names : List String) {aside : Aside} (fits : aside.Fits) :
    (s.restore names aside.labels).Tracks (t.restore names aside.entries) := by
  have erased := h.eraseAll names
  unfold Scopes.restore
  generalize names.foldl Scopes.erase s = s' at erased
  generalize names.foldl Scopes.erase t = t' at erased
  induction aside generalizing s' t' with
  | nil => exact erased
  | cons a aside ih =>
    obtain ⟨name, e, label⟩ := a
    obtain ⟨l, rfl, fit⟩ := fits _ (List.mem_cons_self ..)
    exact ih (fun a inside => fits a (List.mem_cons_of_mem _ inside)) _ _ (erased.insert name fit)

end Tracks

end Scopes

/-! ### Labels for what is there -/

/-- An entry, taken as it is. -/
def Entry.label (e : Entry Value) : Entry Label :=
  ⟨⟨e.payload.type, e.payload⟩, e.binding⟩

def Frame.labels (f : Frame Value) : Frame Label :=
  ⟨f.entries.map fun (name, e) => (name, e.label)⟩

def Scopes.labels (s : Scopes Value) : Scopes Label :=
  ⟨s.current.labels, s.outer.map Frame.labels⟩

theorem Frame.get?_labels (f : Frame Value) (name : String) :
    f.labels.get? name = (f.get? name).map Entry.label := by
  obtain ⟨entries⟩ := f
  simp only [get?, labels]
  induction entries with
  | nil => rfl
  | cons pair rest ih => grind [lookup]

theorem Frame.tracks_labels (f : Frame Value) : f.labels.Tracks f := by
  intro name
  rw [get?_labels]
  cases f.get? name with
  | none => exact .none
  | some e => exact .some ⟨rfl, rfl, fun _ => rfl⟩

theorem Scopes.tracks_labels (s : Scopes Value) : s.labels.Tracks s := by
  refine .cons s.current.tracks_labels ?_
  rw [Scopes.labels, List.forall₂_map_left_iff]
  exact List.forall₂_same.2 fun f _ => f.tracks_labels

/-- The entry has the same kind of binding and a value of the same type; a constant has the same
value. -/
structure Entry.Kept (a b : Entry Value) : Prop where
  binding : b.binding = a.binding
  type : b.payload.type = a.payload.type
  value : a.binding = .const → b.payload = a.payload

/-- The same names are bound, and their entries are kept. -/
def Frame.Kept (f g : Frame Value) : Prop :=
  ∀ name, Option.Rel Entry.Kept (f.get? name) (g.get? name)

theorem Frame.Tracks.kept {f g : Frame Value} (h : f.labels.Tracks g) : f.Kept g := by
  intro name
  have fits := h name
  rw [get?_labels] at fits
  generalize f.get? name = a at fits
  generalize g.get? name = b at fits
  cases a with
  | none =>
    cases fits
    exact .none
  | some a =>
    cases fits with
    | some fits => exact .some ⟨fits.binding, fits.type, fits.value⟩

end ExprLang
