import ExprLang.Proofs.EvalValues
import Mathlib.Data.Set.Card

set_option autoImplicit false

/-!
Map literals. Pairs are entered from left to right. A key that comes again keeps the place and the
form in which it first came, and takes the value that comes last. Which keys are the same is decided
by the equality of values, so `2.50` and `2.5` are one key; the arguments rest on this equality
being an equivalence among values that have been built.
-/

namespace ExprLang

namespace Value

/-! ### One insertion -/

section Insert

variable {es : List (Value × Value)} {k l v : Value}

/-- A key that is there stays as it is; another one comes last. -/
theorem keys_insert (k v : Value) (es : List (Value × Value)) :
    (insert k v es).map Prod.fst =
      if es.any (·.1.equal k) then es.map Prod.fst else es.map Prod.fst ++ [k] := by
  induction es with
  | nil => rfl
  | cons e es ih =>
    obtain ⟨key, value⟩ := e
    rw [insert]
    by_cases here : key.equal k = true
    · simp [here]
    · simp only [here, List.map_cons, ih, List.any_cons, Bool.false_or, Bool.false_eq_true,
        if_false]
      split <;> rfl

theorem keys_distinct_insert (hk : k.Distinct) (hes : ∀ e ∈ es, e.1.Distinct) :
    ∀ e ∈ insert k v es, e.1.Distinct := by
  intro e inside
  rcases mem_insert inside with ⟨-, new | ⟨w, old⟩⟩ | old
  · exact new ▸ hk
  · exact hes (_, w) old
  · exact hes e old

/-- What has been entered is found under every key that equals its own, and nothing else changes. -/
theorem lookup_insert (hes : ∀ e ∈ es, e.1.Distinct) (hk : k.Distinct) (hl : l.Distinct) :
    lookup (insert k v es) l = if k.equal l then some v else lookup es l := by
  induction es with
  | nil => cases same : k.equal l <;> simp [insert, lookup, same]
  | cons e es ih =>
    obtain ⟨key, value⟩ := e
    obtain ⟨hkey, rest⟩ := List.forall_mem_cons.1 hes
    rw [insert]
    by_cases here : key.equal k = true
    · -- The entry that takes the value is found under `l` exactly if `k` equals `l`.
      have alike : key.equal l = k.equal l := by
        simp only [equal_eq_same] at here ⊢
        exact lawful_distinct.congr hkey hk hl here
      rw [if_pos here]
      cases same : k.equal l <;> simp [lookup, alike, same]
    · rw [if_neg here]
      by_cases first : key.equal l = true
      · -- An earlier entry that has `l` differs from `k`, and so does `l`.
        have differ : ¬ k.equal l = true := by
          intro same
          simp only [equal_eq_same] at here first same
          exact here (lawful_distinct.trans hkey hl hk first (lawful_distinct.symm hk hl same))
        rw [if_neg differ]
        simp [lookup, first]
      · have skip : ∀ fs, lookup ((key, value) :: fs) l = lookup fs l := by
          intro fs
          simp [lookup, first]
        rw [skip, skip, ih rest]

end Insert

/-! ### Pairs entered one after the other -/

/-- The entries of the map that holds the pairs. -/
def entriesOfPairs (pairs : List (Value × Value)) : List (Value × Value) :=
  pairs.foldl (fun entries pair => insert pair.1 pair.2 entries) []

/-- The built values that equal a key. -/
def alikes (k : Value) : Set Value :=
  { x | x.Built ∧ k.equal x = true }

theorem alikes_eq_iff {k l : Value} (hk : k.Built) (hl : l.Built) :
    alikes k = alikes l ↔ k.equal l = true := by
  simp only [alikes, equal_eq_same]
  constructor
  · intro eq
    have own : l ∈ { x | x.Built ∧ l.same x = true } := ⟨hl, lawful_distinct.refl hl.distinct⟩
    rw [← eq] at own
    exact own.2
  · intro same
    ext x
    apply and_congr_right
    intro hx
    rw [lawful_distinct.congr hk.distinct hl.distinct hx.distinct same]

/-- The keys that occur, up to equality. -/
def keyClasses (pairs : List (Value × Value)) : Set (Set Value) :=
  { c | ∃ pair ∈ pairs, c = alikes pair.1 }

/-- The entries hold the keys of the pairs, each once, where and in the form in which it first came,
with the value that came last. -/
structure LastWriteWins (pairs entries : List (Value × Value)) : Prop where
  apart : entries.Pairwise fun e f => e.1.equal f.1 = false ∧ f.1.equal e.1 = false
  keys : entries.map Prod.fst = (pairs.map Prod.fst).eraseDupsBy equal
  lookup : ∀ k : Value, k.Built →
    Value.lookup entries k = (pairs.findRev? fun pair => pair.1.equal k).map Prod.snd
  len : ∀ key value : Ty, (map key value entries).len = .ok (keyClasses pairs).ncard

section Pairs

variable {pairs : List (Value × Value)}

/-- The keys go into the map just as duplicates are erased from a list: the new key is compared with
those that have been kept so far. -/
theorem keys_foldl (h : ∀ pair ∈ pairs, pair.1.Distinct) {es : List (Value × Value)}
    (hes : ∀ e ∈ es, e.1.Distinct) :
    (pairs.foldl (fun entries pair => insert pair.1 pair.2 entries) es).map Prod.fst =
      List.eraseDupsBy.loop equal (pairs.map Prod.fst) (es.map Prod.fst).reverse := by
  induction pairs generalizing es with
  | nil => simp [List.eraseDupsBy.loop]
  | cons pair rest ih =>
    obtain ⟨k, v⟩ := pair
    obtain ⟨hk, others⟩ := List.forall_mem_cons.1 h
    have turned : (es.map Prod.fst).reverse.any (k.equal ·) = es.any (·.1.equal k) := by
      rw [List.any_reverse, List.any_map, Bool.eq_iff_iff, List.any_eq_true, List.any_eq_true]
      apply exists_congr
      intro e
      apply and_congr_right
      intro inside
      rw [Function.comp, equal_eq_same, equal_eq_same, lawful_distinct.comm hk (hes e inside)]
    rw [List.foldl_cons, ih others (keys_distinct_insert hk hes), keys_insert, List.map_cons,
      List.eraseDupsBy.loop, turned]
    cases es.any (·.1.equal k) <;> simp

/-- The last pair for a key decides; before the first pair, what was there. -/
theorem lookup_foldl (h : ∀ pair ∈ pairs, pair.1.Distinct) {es : List (Value × Value)}
    (hes : ∀ e ∈ es, e.1.Distinct) {k : Value} (hk : k.Distinct) :
    lookup (pairs.foldl (fun entries pair => insert pair.1 pair.2 entries) es) k =
      ((pairs.findRev? fun pair => pair.1.equal k).map Prod.snd).or (lookup es k) := by
  induction pairs generalizing es with
  | nil => rfl
  | cons pair rest ih =>
    obtain ⟨l, v⟩ := pair
    obtain ⟨hl, others⟩ := List.forall_mem_cons.1 h
    rw [List.foldl_cons, ih others (keys_distinct_insert hl hes), lookup_insert hes hl hk,
      List.findRev?]
    cases rest.findRev? fun pair => pair.1.equal k with
    | some last => rfl
    | none => cases l.equal k <;> simp

theorem lookup_entriesOfPairs (h : ∀ pair ∈ pairs, pair.1.Distinct) {k : Value}
    (hk : k.Distinct) :
    lookup (entriesOfPairs pairs) k =
      (pairs.findRev? fun pair => pair.1.equal k).map Prod.snd := by
  have empty : ∀ e ∈ ([] : List (Value × Value)), e.1.Distinct := by simp
  exact (lookup_foldl h empty hk).trans Option.or_none

/-- A key is among the entries if it is among the pairs. -/
theorem any_entriesOfPairs (h : ∀ pair ∈ pairs, pair.1.Distinct) {k : Value} (hk : k.Distinct) :
    (entriesOfPairs pairs).any (·.1.equal k) = pairs.any (·.1.equal k) := by
  have found := congrArg Option.isSome (lookup_entriesOfPairs h hk)
  simp only [lookup, Option.isSome_map, List.findRev?_eq_find?_reverse, List.isSome_find?] at found
  rw [found, List.any_reverse]

theorem built_entriesOfPairs (h : ∀ pair ∈ pairs, pair.1.Built ∧ pair.2.Built) :
    (map .none .none (entriesOfPairs pairs)).Built :=
  built_mapOfPairs _ _ h

theorem entriesOfPairs_apart (h : ∀ pair ∈ pairs, pair.1.Built ∧ pair.2.Built) :
    (entriesOfPairs pairs).Pairwise fun e f => e.1.equal f.1 = false ∧ f.1.equal e.1 = false := by
  have entries := (built_entriesOfPairs h).entries
  apply entries.apart.imp_of_mem
  intro e f he hf apart
  rw [equal_eq_same, equal_eq_same, lawful_distinct.comm (entries.keys f hf) (entries.keys e he)]
  exact ⟨apart, apart⟩

theorem keyClasses_subset {es fs : List (Value × Value)} (hes : ∀ e ∈ es, e.1.Built)
    (hfs : ∀ f ∈ fs, f.1.Built)
    (found : ∀ k : Value, k.Built → es.any (·.1.equal k) = true → fs.any (·.1.equal k) = true) :
    keyClasses es ⊆ keyClasses fs := by
  rintro _ ⟨e, inside, rfl⟩
  have he := hes e inside
  have own : e.1.equal e.1 = true := by
    rw [equal_eq_same]
    exact lawful_distinct.refl he.distinct
  obtain ⟨f, among, same⟩ := List.any_eq_true.1 (found e.1 he (List.any_eq_true.2 ⟨e, inside, own⟩))
  exact ⟨f, among, ((alikes_eq_iff (hfs f among) he).2 same).symm⟩

/-- Keys that all differ are of as many classes as there are. -/
theorem ncard_keyClasses {es : List (Value × Value)} (hes : ∀ e ∈ es, e.1.Built)
    (apart : es.Pairwise fun e f => e.1.equal f.1 = false ∧ f.1.equal e.1 = false) :
    (keyClasses es).ncard = es.length := by
  classical
  have once : (es.map fun e => alikes e.1).Nodup := by
    rw [List.Nodup, List.pairwise_map]
    apply apart.imp_of_mem
    intro e f he hf differ same
    rw [alikes_eq_iff (hes e he) (hes f hf), differ.1] at same
    cases same
  have listed : keyClasses es = (es.map fun e => alikes e.1).toFinset := by
    ext c
    simp [keyClasses, eq_comm]
  rw [listed, Set.ncard_coe_finset, List.toFinset_card_of_nodup once, List.length_map]

theorem lastWriteWins_entriesOfPairs (h : ∀ pair ∈ pairs, pair.1.Built ∧ pair.2.Built) :
    LastWriteWins pairs (entriesOfPairs pairs) := by
  have keys : ∀ pair ∈ pairs, pair.1.Built := fun pair inside => (h pair inside).1
  have keys' : ∀ e ∈ entriesOfPairs pairs, e.1.Built :=
    fun e inside => ((built_entriesOfPairs h).parts e inside).1
  have distinct : ∀ pair ∈ pairs, pair.1.Distinct := fun pair inside => (keys pair inside).distinct
  have apart := entriesOfPairs_apart h
  have classes : keyClasses (entriesOfPairs pairs) = keyClasses pairs := by
    apply Set.Subset.antisymm
    · exact keyClasses_subset keys' keys fun k hk => (any_entriesOfPairs distinct hk.distinct).le
    · exact keyClasses_subset keys keys' fun k hk => (any_entriesOfPairs distinct hk.distinct).ge
  refine ⟨apart, keys_foldl distinct (by simp), ?_, ?_⟩
  · intro k hk
    exact lookup_entriesOfPairs distinct hk.distinct
  · intro key value
    rw [← classes, ncard_keyClasses keys' apart]
    rfl

end Pairs

end Value

/-! ### Evaluation -/

open EvalM

section Literal

variable {σ : Type} [Sink σ]

/-- Evaluation of the entries of a map literal from left to right, each key before its value: every
part starts in the state in which the one before it has ended. -/
inductive Expr.EntriesRun (rounds : Nat) :
    List (Expr × Expr) → Machine σ → List (Value × Value) → Machine σ → Prop where
  | nil (m : Machine σ) : EntriesRun rounds [] m [] m
  | cons {key value : Expr} {rest : List (Expr × Expr)} {pairs : List (Value × Value)}
      {k v : Control Value} {m m₁ m₂ m' : Machine σ} (first : (key.eval rounds).run m = .ok k m₁)
      (second : (value.eval rounds).run m₁ = .ok v m₂)
      (others : EntriesRun rounds rest m₂ pairs m') :
    EntriesRun rounds ((key, value) :: rest) m ((k.value, v.value) :: pairs) m'

theorem Expr.run_evalEntries_iff {rounds : Nat} {entries : List (Expr × Expr)} {m m' : Machine σ}
    {pairs : List (Value × Value)} :
    (Expr.evalEntries rounds entries).run m = .ok pairs m' ↔
      EntriesRun rounds entries m pairs m' := by
  induction entries generalizing m m' pairs with
  | nil =>
    rw [run_eq_ok_iff, Expr.evalEntries, ends_pure]
    constructor
    · rintro ⟨rfl, rfl⟩
      exact .nil m
    · intro ran
      cases ran
      exact ⟨rfl, rfl⟩
  | cons entry rest ih =>
    obtain ⟨key, value⟩ := entry
    rw [run_eq_ok_iff, Expr.evalEntries]
    simp only [ends_bind, ends_asValue, ends_pure]
    simp only [ends_iff_exists, ih]
    constructor
    · rintro ⟨k, m₁, first, v, m₂, second, later, n, others, rfl, rfl⟩
      exact .cons first second others
    · intro ran
      cases ran with
      | cons first second others => exact ⟨_, _, first, _, _, second, _, _, others, rfl, rfl⟩

/-- The types of a map literal are those of its first pair; without a pair there are none. -/
theorem Expr.run_map_iff {rounds : Nat} {entries : List (Expr × Expr)} {span : Span}
    {m m' : Machine σ} {r : Control Value} (shallow : m.depth < maxNesting) :
    ((Expr.map entries span).eval rounds).run m = .ok r m' ↔
      ∃ pairs n, EntriesRun rounds entries m.deeper pairs n ∧
        r = .normal (.map (pairs.head?.elim .none (·.1.type)) (pairs.head?.elim .none (·.2.type))
          (Value.entriesOfPairs pairs)) ∧ m' = n.shallower := by
  rw [run_eq_ok_iff, Expr.eval, ends_nested, if_neg (by omega), ends_bind, ends_iff_exists]
  simp only [run_evalEntries_iff, ends_pure]
  apply exists₂_congr
  intro pairs n
  apply and_congr_right
  intro _
  cases pairs <;> exact and_congr eq_comm eq_comm

theorem Expr.EntriesRun.built {rounds : Nat} {entries : List (Expr × Expr)} {m m' : Machine σ}
    {pairs : List (Value × Value)} (ran : EntriesRun rounds entries m pairs m') (start : m.Built) :
    ∀ pair ∈ pairs, pair.1.Built ∧ pair.2.Built := by
  have builds : Builds _ (Expr.evalEntries rounds entries : EvalM σ _) :=
    Expr.builds_evalEntries fun e _ => ⟨e.1.builds_eval, e.2.builds_eval⟩
  exact ((builds m start).of_ok (run_evalEntries_iff.2 ran)).1

end Literal

/-- A map literal holds the keys that its pairs come to, each once, in the order and in the form in
which they first come, and each with the value that comes last. Its parts are evaluated from left to
right, each key before its value, and its types are those of the first pair. All this is for keys
and values that are built, and evaluation never comes to others. -/
theorem map_literals_keep_last_values {σ : Type} [Sink σ] (rounds : Nat) :
    (∀ pairs : List (Value × Value), (∀ pair ∈ pairs, pair.1.Built ∧ pair.2.Built) →
      Value.LastWriteWins pairs (Value.entriesOfPairs pairs)) ∧
    (∀ (entries : List (Expr × Expr)) (span : Span) (m m' : Machine σ) (r : Control Value),
      m.depth < maxNesting →
      (((Expr.map entries span).eval rounds).run m = .ok r m' ↔
        ∃ pairs n, Expr.EntriesRun rounds entries m.deeper pairs n ∧
          r = .normal (.map (pairs.head?.elim .none (·.1.type)) (pairs.head?.elim .none (·.2.type))
            (Value.entriesOfPairs pairs)) ∧ m' = n.shallower)) ∧
    (∀ (entries : List (Expr × Expr)) (m m' : Machine σ) (pairs : List (Value × Value)), m.Built →
      Expr.EntriesRun rounds entries m pairs m' → ∀ pair ∈ pairs, pair.1.Built ∧ pair.2.Built) ∧
    (∀ sink : σ, (Machine.init sink).Built) ∧
    ∀ e : Expr, Builds Carries (e.eval rounds : EvalM σ (Control Value)) := by
  refine ⟨fun pairs => Value.lastWriteWins_entriesOfPairs, ?_, ?_, Machine.built_init,
    Expr.builds_eval⟩
  · intro entries span m m' r shallow
    exact Expr.run_map_iff shallow
  · intro entries m m' pairs start ran
    exact ran.built start

section Repeated

/-- The pairs of the literal `<|2.50: "a", 1.0: "b", 2.5: "c"|>`. -/
def repeatedPairs : List (Value × Value) :=
  [(.dec ⟨250, 2⟩, .str "a"), (.dec ⟨10, 1⟩, .str "b"), (.dec ⟨25, 1⟩, .str "c")]

def repeatedEntries : List (Expr × Expr) :=
  [(.literal (.dec ⟨250, 2⟩) ⟨2, 6⟩, .literal (.str "a") ⟨8, 11⟩),
    (.literal (.dec ⟨10, 1⟩) ⟨13, 16⟩, .literal (.str "b") ⟨18, 21⟩),
    (.literal (.dec ⟨25, 1⟩) ⟨23, 26⟩, .literal (.str "c") ⟨28, 31⟩)]

theorem repeatedEntries_run (m : Machine Buffer) (shallow : m.depth < maxNesting) :
    Expr.EntriesRun 0 repeatedEntries m repeatedPairs m := by
  have literal : ∀ (l : Literal) (span : Span),
      ((Expr.literal l span).eval 0).run m = .ok (.normal l.value) m := by
    intro l span
    rw [run_eq_ok_iff, Expr.eval, ends_nested, if_neg (by omega), ends_pure]
    exact ⟨rfl, rfl⟩
  exact .cons (literal _ _) (literal _ _) (.cons (literal _ _) (literal _ _)
    (.cons (literal _ _) (literal _ _) (.nil m)))

/-- The key that comes again stays first and as `2.50`, and has the last value. -/
theorem repeated_key_keeps_last_value :
    (Machine.init Buffer.empty).depth < maxNesting ∧
    (∀ pair ∈ repeatedPairs, pair.1.Built ∧ pair.2.Built) ∧
    ((Expr.map repeatedEntries ⟨0, 33⟩).eval 0).run (Machine.init Buffer.empty) =
      .ok (.normal (.map .dec .str (Value.entriesOfPairs repeatedPairs)))
        (Machine.init Buffer.empty) ∧
    (Value.entriesOfPairs repeatedPairs).map Prod.fst = [.dec ⟨250, 2⟩, .dec ⟨10, 1⟩] ∧
    Value.lookup (Value.entriesOfPairs repeatedPairs) (.dec ⟨2500, 3⟩) = some (.str "c") ∧
    Value.lookup (Value.entriesOfPairs repeatedPairs) (.dec ⟨3, 0⟩) = none := by
  have shallow : (Machine.init Buffer.empty).depth < maxNesting := by decide
  obtain ⟨wins, evaluates, built, init, -⟩ := map_literals_keep_last_values (σ := Buffer) 0
  have ran := repeatedEntries_run (Machine.init Buffer.empty).deeper (by decide)
  have start : (Machine.init Buffer.empty).deeper.Built := init .empty
  have parts := built _ _ _ _ start ran
  have last := wins _ parts
  refine ⟨shallow, parts, (evaluates _ _ _ _ _ shallow).2 ⟨_, _, ran, rfl, rfl⟩, ?_, ?_, ?_⟩
  · rw [last.keys]
    rfl
  · rw [last.lookup _ (.dec _)]
    rfl
  · rw [last.lookup _ (.dec _)]
    rfl

end Repeated

end ExprLang
