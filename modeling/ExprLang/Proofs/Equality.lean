import ExprLang.Proofs.WellTyped
import Mathlib.Data.List.Find
import Mathlib.Data.List.Forall2
import Mathlib.Data.List.Perm.Subperm

set_option autoImplicit false

/-!
Equality of values. Maps are compared in one direction only: each entry of the first has to be found
in the second. That this is an equivalence rests on keys that differ from each other, which is what
insertion keeps up, in maps that are keys of maps as well.
-/

namespace ExprLang

/-! ### Decimals -/

namespace Decimal

theorem digitsAt_of_le {d : Decimal} {s t : Int} (le : d.scale ≤ s) (le' : s ≤ t) :
    d.digitsAt t = d.digitsAt s * pow10 (t - s).toNat := by
  have sum : (t - d.scale).toNat = (s - d.scale).toNat + (t - s).toNat := by omega
  simp only [digitsAt, pow10, Nat.pow_eq, sum, Nat.pow_add, Int.natCast_mul, Int.mul_assoc]

/-- Decimals can be compared at any scale that has room for both. -/
theorem equal_iff_at {a b : Decimal} {s : Int} (ha : a.scale ≤ s) (hb : b.scale ≤ s) :
    a.equal b = true ↔ a.digitsAt s = b.digitsAt s := by
  have least : a.equal b = true ↔
      a.digitsAt (max a.scale b.scale) = b.digitsAt (max a.scale b.scale) := by
    simp [equal, compare]
  have positive : 0 < pow10 (s - max a.scale b.scale).toNat := Nat.pow_pos (by decide)
  rw [least, digitsAt_of_le (Int.le_max_left ..) (Int.max_le.2 ⟨ha, hb⟩),
    digitsAt_of_le (Int.le_max_right ..) (Int.max_le.2 ⟨ha, hb⟩)]
  exact (Int.mul_eq_mul_right_iff (by omega)).symm

theorem equal_refl (a : Decimal) : a.equal a = true :=
  (equal_iff_at (Int.le_refl _) (Int.le_refl _)).2 rfl

theorem equal_symm {a b : Decimal} (h : a.equal b = true) : b.equal a = true := by
  have ha : a.scale ≤ max a.scale b.scale := Int.le_max_left ..
  have hb : b.scale ≤ max a.scale b.scale := Int.le_max_right ..
  rw [equal_iff_at ha hb] at h
  exact (equal_iff_at hb ha).2 h.symm

theorem equal_trans {a b c : Decimal} (h : a.equal b = true) (h' : b.equal c = true) :
    a.equal c = true := by
  have ha : a.scale ≤ max a.scale (max b.scale c.scale) := by omega
  have hb : b.scale ≤ max a.scale (max b.scale c.scale) := by omega
  have hc : c.scale ≤ max a.scale (max b.scale c.scale) := by omega
  rw [equal_iff_at ha hb] at h
  rw [equal_iff_at hb hc] at h'
  exact (equal_iff_at ha hc).2 (h.trans h')

end Decimal

/-! ### Rows -/

section Rows

variable {α β : Type} {r : α → β → Prop} {xs : List α} {ys : List β}

theorem exists_of_forall₂_of_mem (paired : List.Forall₂ r xs ys) {y : β} (inside : y ∈ ys) :
    ∃ x ∈ xs, r x y := by
  induction paired with
  | nil => cases inside
  | cons first _ ih =>
    rcases List.mem_cons.1 inside with rfl | later
    · exact ⟨_, List.mem_cons_self .., first⟩
    · obtain ⟨x, among, related⟩ := ih later
      exact ⟨x, List.mem_cons_of_mem _ among, related⟩

/-- If everything in one row is related to something in another that is no longer, and nothing is
related to two different places of the first row, then the two can be paired up. -/
theorem exists_perm_of_found (long : ys.length ≤ xs.length) (found : ∀ x ∈ xs, ∃ y ∈ ys, r x y)
    (apart : xs.Pairwise fun x x' => ∀ y, r x y → ¬ r x' y) :
    ∃ zs, zs.Perm ys ∧ List.Forall₂ r xs zs := by
  have chosen : ∃ zs, zs ⊆ ys ∧ zs.Nodup ∧ List.Forall₂ r xs zs := by
    clear long
    induction xs with
    | nil => exact ⟨[], List.nil_subset _, List.nodup_nil, .nil⟩
    | cons x xs ih =>
      obtain ⟨y, inside, related⟩ := found x (List.mem_cons_self ..)
      obtain ⟨here, later⟩ := List.pairwise_cons.1 apart
      obtain ⟨zs, subset, nodup, paired⟩ :=
        ih (fun x' among => found x' (List.mem_cons_of_mem _ among)) later
      have fresh : y ∉ zs := by
        intro taken
        obtain ⟨x', among, related'⟩ := exists_of_forall₂_of_mem paired taken
        exact here x' among y related related'
      exact ⟨y :: zs, List.cons_subset.2 ⟨inside, subset⟩, List.nodup_cons.2 ⟨fresh, nodup⟩,
        .cons related paired⟩
  obtain ⟨zs, subset, nodup, paired⟩ := chosen
  refine ⟨zs, (nodup.subperm subset).perm_of_length_le ?_, paired⟩
  rw [← paired.length_eq]
  exact long

end Rows

namespace Value

/-! ### What the test says -/

/-- What two values have to have in common to be the same: one level of the test. -/
inductive Alike : Value → Value → Prop where
  | none : Alike none none
  | int (n : Int) : Alike (int n) (int n)
  | dec {a b : Decimal} (number : a.equal b = true) : Alike (dec a) (dec b)
  | str (s : String) : Alike (str s) (str s)
  | bool (b : Bool) : Alike (bool b) (bool b)
  | list {t : Ty} {xs ys : List Value} (items : sameItems xs ys = true) :
    Alike (list t xs) (list t ys)
  | map {k v : Ty} {es fs : List (Value × Value)} (length : es.length = fs.length)
      (found : foundIn es fs = true) : Alike (map k v es) (map k v fs)

theorem same_iff_alike {a b : Value} : a.same b = true ↔ Alike a b := by
  constructor
  · intro h
    cases a <;> cases b <;> simp [same] at h
    case none.none => exact .none
    case int.int => exact h ▸ .int _
    case dec.dec => exact .dec h
    case str.str => exact h ▸ .str _
    case bool.bool => exact h ▸ .bool _
    case list.list =>
      obtain ⟨rfl, items⟩ := h
      exact .list items
    case map.map =>
      obtain ⟨⟨⟨rfl, rfl⟩, length⟩, found⟩ := h
      exact .map length found
  · intro h
    cases h <;> simp_all [same]

theorem Alike.type_eq {a b : Value} (h : Alike a b) : a.type = b.type := by
  cases h <;> rfl

/-- The types need no test of their own. -/
theorem equal_eq_same (a b : Value) : a.equal b = a.same b := by
  have types : a.same b = true → (a.type == b.type) = true := by
    intro h
    simp [(same_iff_alike.1 h).type_eq]
  have eq : a.equal b = (a.type == b.type && a.same b) := rfl
  cases h : a.same b <;> simp_all

theorem sameItems_iff {xs ys : List Value} :
    sameItems xs ys = true ↔ List.Forall₂ (fun x y => x.same y = true) xs ys := by
  induction xs generalizing ys with
  | nil => cases ys <;> simp [sameItems]
  | cons x xs ih => cases ys <;> simp [sameItems, ih]

/-- An entry is the same as another. -/
def SameEntry (e f : Value × Value) : Prop :=
  e.1.equal f.1 = true ∧ e.2.equal f.2 = true

theorem foundIn_iff {es fs : List (Value × Value)} :
    foundIn es fs = true ↔
      ∀ e ∈ es, ∃ f, fs.find? (fun f => e.1.same f.1) = some f ∧ e.2.same f.2 = true := by
  induction es with
  | nil => simp [foundIn]
  | cons e es ih =>
    obtain ⟨k, v⟩ := e
    simp only [foundIn, Bool.and_eq_true, ih, List.forall_mem_cons]
    cases fs.find? fun f => k.same f.1 <;> simp

/-! ### Values with keys that differ -/

/-- In every map, at any depth, no key is the same as an earlier one. -/
inductive Distinct : Value → Prop where
  | none : Distinct none
  | int (n : Int) : Distinct (int n)
  | dec (d : Decimal) : Distinct (dec d)
  | str (s : String) : Distinct (str s)
  | bool (b : Bool) : Distinct (bool b)
  | list (t : Ty) {items : List Value} (each : ∀ v ∈ items, Distinct v) : Distinct (list t items)
  | map (key value : Ty) {entries : List (Value × Value)}
      (apart : entries.Pairwise fun e f => e.1.same f.1 = false)
      (keys : ∀ e ∈ entries, Distinct e.1) (values : ∀ e ∈ entries, Distinct e.2) :
    Distinct (map key value entries)

/-- Among the values with `P`, to be the same is an equivalence. -/
structure Lawful (P : Value → Prop) : Prop where
  refl : ∀ {a}, P a → a.same a = true
  symm : ∀ {a b}, P a → P b → a.same b = true → b.same a = true
  trans : ∀ {a b c}, P a → P b → P c → a.same b = true → b.same c = true → a.same c = true

/-- The entries of a map, with keys that differ, and all keys and values with `P`. -/
structure Entries (P : Value → Prop) (entries : List (Value × Value)) : Prop where
  apart : entries.Pairwise fun e f => e.1.same f.1 = false
  keys : ∀ e ∈ entries, P e.1
  values : ∀ e ∈ entries, P e.2

namespace Lawful

variable {P : Value → Prop} (laws : Lawful P) {es fs gs : List (Value × Value)}

include laws

theorem comm {a b : Value} (ha : P a) (hb : P b) : a.same b = b.same a :=
  Bool.eq_iff_iff.2 ⟨laws.symm ha hb, laws.symm hb ha⟩

/-- What is the same can take each other's place. -/
theorem congr {a b c : Value} (ha : P a) (hb : P b) (hc : P c) (h : a.same b = true) :
    a.same c = b.same c :=
  Bool.eq_iff_iff.2 ⟨laws.trans hb ha hc (laws.symm ha hb h), laws.trans ha hb hc h⟩

/-- There is one entry for a key. -/
theorem entry_unique (h : Entries P es) {e f : Value × Value} (he : e ∈ es) (hf : f ∈ es)
    (same : e.1.same f.1 = true) : e = f := by
  have after : es.Pairwise fun e f => e.1.same f.1 = true → e = f := by
    apply h.apart.imp
    intro a b apart same
    rw [apart] at same
    cases same
  have before : es.Pairwise (flip fun e f => e.1.same f.1 = true → e = f) := by
    apply h.apart.imp_of_mem
    intro a b ha hb apart same
    rw [laws.comm (h.keys b hb) (h.keys a ha), apart] at same
    cases same
  exact after.forall_of_forall_of_flip (fun _ _ _ => rfl) before he hf same

/-- A key is found at the one entry that has it. -/
theorem find?_eq_some_iff (h : Entries P es) {k : Value} (hk : P k) {e : Value × Value} :
    es.find? (fun e => k.same e.1) = some e ↔ e ∈ es ∧ k.same e.1 = true := by
  constructor
  · intro found
    have same := List.find?_some found
    exact ⟨List.mem_of_find?_eq_some found, same⟩
  · rintro ⟨inside, same⟩
    cases found : es.find? fun e => k.same e.1 with
    | none => exact absurd same (List.find?_eq_none.1 found e inside)
    | some f =>
      have among := List.mem_of_find?_eq_some found
      have same' := List.find?_some found
      rw [laws.congr hk (h.keys e inside) (h.keys f among) same] at same'
      rw [laws.entry_unique h inside among same']

theorem foundIn_iff_exists (hes : Entries P es) (hfs : Entries P fs) :
    foundIn es fs = true ↔ ∀ e ∈ es, ∃ f ∈ fs, SameEntry e f := by
  simp only [foundIn_iff, SameEntry, equal_eq_same]
  constructor
  · intro h e inside
    obtain ⟨f, found, value⟩ := h e inside
    rw [laws.find?_eq_some_iff hfs (hes.keys e inside)] at found
    exact ⟨f, found.1, found.2, value⟩
  · intro h e inside
    obtain ⟨f, among, key, value⟩ := h e inside
    exact ⟨f, (laws.find?_eq_some_iff hfs (hes.keys e inside)).2 ⟨among, key⟩, value⟩

theorem sameEntry_symm (hes : Entries P es) (hfs : Entries P fs) {e f : Value × Value} (he : e ∈ es)
    (hf : f ∈ fs) (h : SameEntry e f) : SameEntry f e := by
  simp only [SameEntry, equal_eq_same] at h ⊢
  exact ⟨laws.symm (hes.keys e he) (hfs.keys f hf) h.1,
    laws.symm (hes.values e he) (hfs.values f hf) h.2⟩

theorem sameEntry_trans (hes : Entries P es) (hfs : Entries P fs) (hgs : Entries P gs)
    {e f g : Value × Value} (he : e ∈ es) (hf : f ∈ fs) (hg : g ∈ gs) (h : SameEntry e f)
    (h' : SameEntry f g) : SameEntry e g := by
  simp only [SameEntry, equal_eq_same] at h h' ⊢
  exact ⟨laws.trans (hes.keys e he) (hfs.keys f hf) (hgs.keys g hg) h.1 h'.1,
    laws.trans (hes.values e he) (hfs.values f hf) (hgs.values g hg) h.2 h'.2⟩

/-- Maps that pass the test have entries that can be paired up. -/
theorem foundIn_iff_perm (hes : Entries P es) (hfs : Entries P fs)
    (length : es.length = fs.length) :
    foundIn es fs = true ↔ ∃ gs, gs.Perm fs ∧ List.Forall₂ SameEntry es gs := by
  rw [laws.foundIn_iff_exists hes hfs]
  constructor
  · intro found
    -- An entry of `fs` goes with one entry of `es` at most, since the keys of `es` differ.
    have apart : es.Pairwise fun e e' =>
        ∀ f, f ∈ fs ∧ SameEntry e f → ¬ (f ∈ fs ∧ SameEntry e' f) := by
      apply hes.apart.imp_of_mem
      intro e e' he he' apart f first second
      have back := laws.sameEntry_symm hes hfs he' first.1 second.2
      have same := (laws.sameEntry_trans hes hfs hes he first.1 he' first.2 back).1
      rw [equal_eq_same, apart] at same
      cases same
    have found' : ∀ e ∈ es, ∃ f ∈ fs, f ∈ fs ∧ SameEntry e f := by
      intro e inside
      obtain ⟨f, among, same⟩ := found e inside
      exact ⟨f, among, among, same⟩
    obtain ⟨gs, perm, paired⟩ := exists_perm_of_found (Nat.le_of_eq length.symm) found' apart
    exact ⟨gs, perm, paired.imp fun _ _ both => both.2⟩
  · rintro ⟨gs, perm, paired⟩ e inside
    obtain ⟨g, among, same⟩ := exists_of_forall₂_of_mem paired.flip inside
    exact ⟨g, perm.mem_iff.1 among, same⟩

theorem foundIn_refl (h : Entries P es) : foundIn es es = true := by
  rw [laws.foundIn_iff_exists h h]
  intro e inside
  refine ⟨e, inside, ?_⟩
  simp only [SameEntry, equal_eq_same]
  exact ⟨laws.refl (h.keys e inside), laws.refl (h.values e inside)⟩

/-- The test in one direction gives the test in the other: no entry is left over. -/
theorem foundIn_symm (hes : Entries P es) (hfs : Entries P fs) (length : es.length = fs.length)
    (h : foundIn es fs = true) : foundIn fs es = true := by
  rw [laws.foundIn_iff_perm hes hfs length] at h
  obtain ⟨gs, perm, paired⟩ := h
  rw [laws.foundIn_iff_exists hfs hes]
  intro f inside
  obtain ⟨e, among, same⟩ := exists_of_forall₂_of_mem paired (perm.mem_iff.2 inside)
  exact ⟨e, among, laws.sameEntry_symm hes hfs among inside same⟩

theorem foundIn_trans (hes : Entries P es) (hfs : Entries P fs) (hgs : Entries P gs)
    (h : foundIn es fs = true) (h' : foundIn fs gs = true) : foundIn es gs = true := by
  rw [laws.foundIn_iff_exists hes hfs] at h
  rw [laws.foundIn_iff_exists hfs hgs] at h'
  rw [laws.foundIn_iff_exists hes hgs]
  intro e inside
  obtain ⟨f, among, same⟩ := h e inside
  obtain ⟨g, among', same'⟩ := h' f among
  exact ⟨g, among', laws.sameEntry_trans hes hfs hgs inside among among' same same'⟩

theorem sameItems_refl {xs : List Value} (hx : ∀ x ∈ xs, P x) : sameItems xs xs = true := by
  rw [sameItems_iff, List.forall₂_same]
  intro x inside
  exact laws.refl (hx x inside)

theorem sameItems_symm {xs ys : List Value} (hx : ∀ x ∈ xs, P x) (hy : ∀ y ∈ ys, P y)
    (h : sameItems xs ys = true) : sameItems ys xs = true := by
  rw [sameItems_iff] at h ⊢
  induction h with
  | nil => exact .nil
  | cons first _ ih =>
    obtain ⟨hx, hxs⟩ := List.forall_mem_cons.1 hx
    obtain ⟨hy, hys⟩ := List.forall_mem_cons.1 hy
    exact .cons (laws.symm hx hy first) (ih hxs hys)

theorem sameItems_trans {xs ys zs : List Value} (hx : ∀ x ∈ xs, P x) (hy : ∀ y ∈ ys, P y)
    (hz : ∀ z ∈ zs, P z) (h : sameItems xs ys = true) (h' : sameItems ys zs = true) :
    sameItems xs zs = true := by
  rw [sameItems_iff] at h h' ⊢
  induction h generalizing zs with
  | nil => exact h'
  | cons first _ ih =>
    cases h' with
    | cons second rest =>
      obtain ⟨hx, hxs⟩ := List.forall_mem_cons.1 hx
      obtain ⟨hy, hys⟩ := List.forall_mem_cons.1 hy
      obtain ⟨hz, hzs⟩ := List.forall_mem_cons.1 hz
      exact .cons (laws.trans hx hy hz first second) (ih hxs hys hzs rest)

end Lawful

/-- A value with keys that differ, of bounded size. -/
def Below (n : Nat) (v : Value) : Prop :=
  v.Distinct ∧ sizeOf v < n

theorem Below.items {n : Nat} {t : Ty} {items : List Value} (h : Below (n + 1) (list t items)) :
    ∀ v ∈ items, Below n v := by
  intro v inside
  obtain ⟨distinct, size⟩ := h
  have smaller := List.sizeOf_lt_of_mem inside
  simp only [list.sizeOf_spec] at size
  cases distinct with
  | list _ each => exact ⟨each v inside, by omega⟩

theorem Below.entries {n : Nat} {k v : Ty} {entries : List (Value × Value)}
    (h : Below (n + 1) (map k v entries)) : Entries (Below n) entries := by
  obtain ⟨distinct, size⟩ := h
  simp only [map.sizeOf_spec] at size
  have smaller : ∀ e ∈ entries, sizeOf e.1 < n ∧ sizeOf e.2 < n := by
    rintro ⟨a, b⟩ inside
    have smaller := List.sizeOf_lt_of_mem inside
    simp only [Prod.mk.sizeOf_spec] at smaller
    exact ⟨by simp only; omega, by simp only; omega⟩
  cases distinct with
  | map _ _ apart keys values =>
    exact ⟨apart, fun e inside => ⟨keys e inside, (smaller e inside).1⟩,
      fun e inside => ⟨values e inside, (smaller e inside).2⟩⟩

/-- All laws at once, by the size of the values: for a map to be the same both ways, its keys have
to be the same along a chain. -/
theorem lawful_below (n : Nat) : Lawful (Below n) := by
  induction n with
  | zero =>
    have empty : ∀ {a}, ¬ Below 0 a := fun h => Nat.not_lt_zero _ h.2
    exact ⟨fun h => absurd h empty, fun h => absurd h empty, fun h => absurd h empty⟩
  | succ n laws =>
    constructor
    · intro a ha
      rw [same_iff_alike]
      cases a with
      | none => exact .none
      | int n => exact .int n
      | dec d => exact .dec d.equal_refl
      | str s => exact .str s
      | bool b => exact .bool b
      | list t items => exact .list (laws.sameItems_refl ha.items)
      | map k v entries => exact .map rfl (laws.foundIn_refl ha.entries)
    · intro a b ha hb h
      rw [same_iff_alike] at h ⊢
      cases h with
      | none => exact .none
      | int n => exact .int n
      | dec number => exact .dec (Decimal.equal_symm number)
      | str s => exact .str s
      | bool b => exact .bool b
      | list items => exact .list (laws.sameItems_symm ha.items hb.items items)
      | map length found =>
        exact .map length.symm (laws.foundIn_symm ha.entries hb.entries length found)
    · intro a b c ha hb hc h h'
      rw [same_iff_alike] at h h' ⊢
      cases h with
      | none => exact h'
      | int n => exact h'
      | str s => exact h'
      | bool b => exact h'
      | dec number =>
        cases h' with
        | dec number' => exact .dec (Decimal.equal_trans number number')
      | list items =>
        cases h' with
        | list items' => exact .list (laws.sameItems_trans ha.items hb.items hc.items items items')
      | map length found =>
        cases h' with
        | map length' found' =>
          exact .map (length.trans length')
            (laws.foundIn_trans ha.entries hb.entries hc.entries found found')

theorem lawful_distinct : Lawful Distinct := by
  constructor
  · intro a ha
    exact (lawful_below (sizeOf a + 1)).refl ⟨ha, by omega⟩
  · intro a b ha hb
    exact (lawful_below (sizeOf a + sizeOf b + 1)).symm ⟨ha, by omega⟩ ⟨hb, by omega⟩
  · intro a b c ha hb hc
    exact (lawful_below (sizeOf a + sizeOf b + sizeOf c + 1)).trans ⟨ha, by omega⟩ ⟨hb, by omega⟩
      ⟨hc, by omega⟩

/-! ### Maps that have been built -/

/-- Every map in the value, at any depth, has come from an empty one by insertion. -/
inductive Built : Value → Prop where
  | none : Built none
  | int (n : Int) : Built (int n)
  | dec (d : Decimal) : Built (dec d)
  | str (s : String) : Built (str s)
  | bool (b : Bool) : Built (bool b)
  | list (t : Ty) {items : List Value} (each : ∀ v ∈ items, Built v) : Built (list t items)
  | emptyMap (key value : Ty) : Built (map key value [])
  | inserted {key value : Ty} {entries : List (Value × Value)} {k v : Value}
      (before : Built (map key value entries)) (hk : Built k) (hv : Built v) :
    Built (map key value (insert k v entries))

theorem built_mapOfPairs (key value : Ty) {pairs : List (Value × Value)}
    (each : ∀ pair ∈ pairs, pair.1.Built ∧ pair.2.Built) : (mapOfPairs key value pairs).Built := by
  have step : ∀ entries, Built (map key value entries) →
      Built (map key value (pairs.foldl (fun es pair => insert pair.1 pair.2 es) entries)) := by
    induction pairs with
    | nil => exact fun _ h => h
    | cons pair rest ih =>
      intro entries h
      obtain ⟨hk, hv⟩ := each pair (List.mem_cons_self ..)
      exact ih (fun p inside => each p (List.mem_cons_of_mem _ inside)) _ (h.inserted hk hv)
  exact step [] (.emptyMap key value)

/-- Insertion keeps keys apart: a new key differs from all that are there. -/
theorem apart_insert {entries : List (Value × Value)} (k v : Value)
    (apart : entries.Pairwise fun e f => e.1.same f.1 = false) :
    (insert k v entries).Pairwise fun e f => e.1.same f.1 = false := by
  induction entries with
  | nil => exact List.pairwise_singleton ..
  | cons first rest ih =>
    obtain ⟨key, value⟩ := first
    obtain ⟨here, later⟩ := List.pairwise_cons.1 apart
    rw [insert]
    split
    · exact List.pairwise_cons.2 ⟨here, later⟩
    next other =>
      refine List.pairwise_cons.2 ⟨?_, ih later⟩
      intro e inside
      rw [equal_eq_same] at other
      rcases mem_insert inside with ⟨-, new | ⟨w, old⟩⟩ | old
      · rw [new]
        exact Bool.eq_false_iff.2 other
      · exact here (_, w) old
      · exact here e old

theorem Built.distinct {a : Value} (h : a.Built) : a.Distinct := by
  induction h with
  | none => exact .none
  | int n => exact .int n
  | dec d => exact .dec d
  | str s => exact .str s
  | bool b => exact .bool b
  | list t _ ih => exact .list t ih
  | emptyMap key value => exact .map key value .nil (by simp) (by simp)
  | @inserted key value entries k v _ _ _ before hk hv =>
    cases before with
    | map _ _ apart keys values =>
      refine .map key value (apart_insert k v apart) ?_ ?_
      · intro e inside
        rcases mem_insert inside with ⟨-, new | ⟨w, old⟩⟩ | old
        · exact new ▸ hk
        · exact keys (_, w) old
        · exact keys e old
      · intro e inside
        rcases mem_insert inside with ⟨new, -⟩ | old
        · exact new ▸ hv
        · exact values e old

theorem Built.entries {key value : Ty} {es : List (Value × Value)} (h : (map key value es).Built) :
    Entries Distinct es := by
  cases h.distinct with
  | map _ _ apart keys values => exact ⟨apart, keys, values⟩

/-! ### Equality is an equivalence -/

theorem map_equal_iff {key value : Ty} {es fs : List (Value × Value)} :
    (map key value es).equal (map key value fs) = true ↔
      es.length = fs.length ∧ foundIn es fs = true := by
  simp [equal_eq_same, same]

section Lookup

variable {es fs : List (Value × Value)}

/-- Keys that are equal are looked up in the same way, entry by entry. -/
theorem find?_of_equal (h : Entries Distinct es) {k l : Value} (hk : k.Distinct) (hl : l.Distinct)
    (same : k.equal l = true) :
    es.find? (fun e => e.1.equal k) = es.find? (fun e => e.1.equal l) := by
  apply List.find?_congr
  intro e inside
  simp only [equal_eq_same] at same ⊢
  rw [lawful_distinct.comm (h.keys e inside) hk, lawful_distinct.comm (h.keys e inside) hl]
  exact lawful_distinct.congr hk hl (h.keys e inside) same

/-- Looking up a key gives the value of the one entry that has it. -/
theorem lookup_eq_some_iff (h : Entries Distinct es) {k v : Value} (hk : k.Distinct) :
    lookup es k = some v ↔ ∃ e ∈ es, k.same e.1 = true ∧ e.2 = v := by
  have turned : es.find? (fun e => e.1.equal k) = es.find? fun e => k.same e.1 := by
    apply List.find?_congr
    intro e inside
    rw [equal_eq_same, lawful_distinct.comm (h.keys e inside) hk]
  rw [lookup, turned]
  simp only [Option.map_eq_some_iff, lawful_distinct.find?_eq_some_iff h hk, and_assoc]

/-- The test on maps can be done by looking up each key of the first in the second. -/
theorem foundIn_eq_all_lookup (hes : Entries Distinct es) (hfs : Entries Distinct fs) :
    foundIn es fs = es.all fun e => (lookup fs e.1).any (·.equal e.2) := by
  rw [Bool.eq_iff_iff, lawful_distinct.foundIn_iff_exists hes hfs, List.all_eq_true]
  apply forall₂_congr
  intro e inside
  rw [Option.any_eq_true]
  constructor
  · rintro ⟨f, among, key, value⟩
    rw [equal_eq_same] at key value
    refine ⟨f.2, (lookup_eq_some_iff hfs (hes.keys e inside)).2 ⟨f, among, key, rfl⟩, ?_⟩
    rw [equal_eq_same]
    exact lawful_distinct.symm (hes.values e inside) (hfs.values f among) value
  · rintro ⟨v, found, value⟩
    obtain ⟨f, among, key, rfl⟩ := (lookup_eq_some_iff hfs (hes.keys e inside)).1 found
    rw [equal_eq_same] at value
    refine ⟨f, among, ?_, ?_⟩
    · rw [equal_eq_same]
      exact key
    · rw [equal_eq_same]
      exact lawful_distinct.symm (hfs.values f among) (hes.values e inside) value

end Lookup

/-- Among values whose maps have been built by insertion, equality is an equivalence, and the types
need no test of their own. Two maps of the same types are equal exactly if their entries can be
paired up, in any order, equal key with equal key and equal value with equal value; this is what
looking up each key of the first in the second tells. Keys that are equal find the same entry. -/
theorem equal_is_equivalence :
    Equivalence (fun a b : { v : Value // v.Built } => a.1.equal b.1 = true) ∧
    (∀ a b : Value, a.equal b = (a == b)) ∧
    (∀ (key value : Ty) (es fs : List (Value × Value)), (map key value es).Built →
      (map key value fs).Built →
      ((map key value es).equal (map key value fs) = true ↔
        es.length = fs.length ∧ ∃ gs, gs.Perm fs ∧ List.Forall₂ SameEntry es gs) ∧
      (map key value es).equal (map key value fs) =
        (es.length == fs.length && es.all fun e => (lookup fs e.1).any (·.equal e.2))) ∧
    (∀ k l : Value, k.Built → l.Built → k.equal l = true →
      ∀ (key value : Ty) (es : List (Value × Value)), (map key value es).Built →
        es.find? (fun e => e.1.equal k) = es.find? (fun e => e.1.equal l) ∧
        lookup es k = lookup es l) := by
  refine ⟨⟨?_, ?_, ?_⟩, equal_eq_same, ?_, ?_⟩
  · intro a
    rw [equal_eq_same]
    exact lawful_distinct.refl a.2.distinct
  · intro a b h
    rw [equal_eq_same] at h ⊢
    exact lawful_distinct.symm a.2.distinct b.2.distinct h
  · intro a b c h h'
    rw [equal_eq_same] at h h' ⊢
    exact lawful_distinct.trans a.2.distinct b.2.distinct c.2.distinct h h'
  · intro key value es fs hes hfs
    constructor
    · rw [map_equal_iff]
      apply and_congr_right
      exact lawful_distinct.foundIn_iff_perm hes.entries hfs.entries
    · rw [← foundIn_eq_all_lookup hes.entries hfs.entries, Bool.eq_iff_iff, map_equal_iff,
        Bool.and_eq_true, beq_iff_eq]
  · intro k l hk hl same key value es hes
    have entry := find?_of_equal hes.entries hk.distinct hl.distinct same
    exact ⟨entry, by rw [lookup, lookup, entry]⟩

section Rescaled

/-- The map `<|2.5: "a", 1: "b"|>`. -/
def scaled : Value :=
  mapOfPairs .dec .str [(dec ⟨25, 1⟩, str "a"), (dec ⟨1, 0⟩, str "b")]

/-- The map `<|1.00: "b", 2.50: "a"|>`. -/
def rescaled : Value :=
  mapOfPairs .dec .str [(dec ⟨100, 2⟩, str "b"), (dec ⟨250, 2⟩, str "a")]

/-- The two maps are equal both ways, and as keys they find the same entry. -/
theorem rescaled_finds_scaled :
    scaled.Built ∧ rescaled.Built ∧ scaled.equal rescaled = true ∧ rescaled.equal scaled = true ∧
      lookup [(int 0, int 1), (scaled, int 2)] rescaled =
        lookup [(int 0, int 1), (scaled, int 2)] scaled := by
  obtain ⟨equivalence, -, -, finds⟩ := equal_is_equivalence
  have built : scaled.Built := by
    apply built_mapOfPairs
    simp [Built.dec, Built.str]
  have built' : rescaled.Built := by
    apply built_mapOfPairs
    simp [Built.dec, Built.str]
  have same : scaled.equal rescaled = true := by decide +kernel
  have symm := @equivalence.symm ⟨_, built⟩ ⟨_, built'⟩ same
  have keys : (mapOfPairs .int .int [(int 0, int 1), (scaled, int 2)]).Built := by
    apply built_mapOfPairs
    simp [Built.int, built]
  exact ⟨built, built', same, symm, (finds _ _ built' built symm _ _ _ keys).2⟩

end Rescaled

end Value

end ExprLang
