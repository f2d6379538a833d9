import ExprLang.Proofs.Equality
import ExprLang.Proofs.Outcomes
import ExprLang.Proofs.Subexpr

set_option autoImplicit false

/-!
The values that evaluation comes to. Every map in them, at any depth, has come from an empty one by
insertion: a map is made by a literal, or is the empty zero of a type, and everything else only
hands on what is there. The names in scope are bound to such values all along.
-/

namespace ExprLang

/-! ### Operations -/

theorem Ty.built_zero (t : Ty) : t.zero.Built := by
  unfold Ty.zero
  split
  · exact .none
  · exact .int 0
  · exact .dec .zero
  · exact .str ""
  · exact .bool false
  · exact .list _ (by simp)
  · exact .emptyMap _ _

theorem Literal.built_value (l : Literal) : l.value.Built := by
  cases l with
  | int n => exact .int n
  | dec d => exact .dec d
  | str s => exact .str s
  | bool b => exact .bool b

namespace Value

variable {l r v : Value}

theorem Built.items {t : Ty} {items : List Value} (h : (Value.list t items).Built) :
    ∀ v ∈ items, v.Built := by
  cases h
  assumption

/-- What a built map holds is built. -/
theorem Built.parts {key value : Ty} {entries : List (Value × Value)}
    (h : (map key value entries).Built) : ∀ e ∈ entries, e.1.Built ∧ e.2.Built := by
  generalize eq : map key value entries = m at h
  induction h generalizing entries with
  | none | int | dec | str | bool | list => cases eq
  | emptyMap =>
    cases eq
    simp
  | inserted before hk hv ih =>
    cases eq
    intro e inside
    rcases mem_insert inside with ⟨new, first | ⟨w, again⟩⟩ | old
    · exact ⟨first ▸ hk, new ▸ hv⟩
    · exact ⟨(ih rfl _ again).1, new ▸ hv⟩
    · exact ih rfl e old

/-- Operations hand on parts of their operands, and make no maps but empty ones. -/
theorem Outcome.built (h : Outcome l r (.ok v)) (hl : l.Built) (hr : r.Built) : v.Built := by
  cases h with
  | int n => exact .int n
  | dec d => exact .dec d
  | str s => exact .str s
  | bool b => exact .bool b
  | items left right among =>
    subst left right
    exact .list _ fun z inside => (among z inside).elim (hl.items z) (hr.items z)
  | item left inside =>
    subst left
    exact hl.items v inside
  | entry left inside =>
    subst left
    exact (hl.parts _ inside).2
  | missing => exact Ty.built_zero _

end Value

/-! ### Scopes -/

/-- Names are bound to values with `P` only. -/
def Frame.All (P : Value → Prop) (f : Frame Value) : Prop :=
  ∀ name entry, f.get? name = some entry → P entry.payload

def Scopes.All (P : Value → Prop) (s : Scopes Value) : Prop :=
  ∀ f ∈ s.current :: s.outer, f.All P

namespace Frame

variable {P : Value → Prop} {f : Frame Value}

theorem all_empty : (empty : Frame Value).All P := by
  intro name entry bound
  cases bound

theorem All.erase (h : f.All P) (name : String) : (f.erase name).All P := by
  intro other entry bound
  rw [get?_erase] at bound
  split at bound
  · cases bound
  · exact h other entry bound

theorem All.insert (h : f.All P) (name : String) {entry : Entry Value} (new : P entry.payload) :
    (f.insert name entry).All P := by
  intro other found bound
  rw [get?_insert] at bound
  split at bound
  · cases bound; exact new
  · exact h other found bound

theorem All.set (h : f.All P) (name : String) {v : Value} (new : P v) : (f.set name v).All P := by
  intro other entry bound
  rw [get?_set] at bound
  split at bound
  · obtain ⟨old, -, rfl⟩ := Option.map_eq_some_iff.1 bound
    exact new
  · exact h other entry bound

end Frame

namespace Scopes

variable {P : Value → Prop} {s : Scopes Value}

theorem all_root : (root : Scopes Value).All P :=
  List.forall_mem_singleton.2 Frame.all_empty

theorem All.enter (h : s.All P) : s.enter.All P :=
  List.forall_mem_cons.2 ⟨Frame.all_empty, h⟩

theorem All.exit (h : s.All P) : s.exit.All P := by
  unfold Scopes.exit
  split
  · exact h
  next outer =>
    rw [All, outer] at h
    exact (List.forall_mem_cons.1 h).2

theorem All.erase (h : s.All P) (name : String) : (s.erase name).All P := by
  obtain ⟨here, around⟩ := List.forall_mem_cons.1 h
  exact List.forall_mem_cons.2 ⟨here.erase name, around⟩

theorem All.insert (h : s.All P) (name : String) {entry : Entry Value} (new : P entry.payload) :
    (s.insert name entry).All P := by
  obtain ⟨here, around⟩ := List.forall_mem_cons.1 h
  exact List.forall_mem_cons.2 ⟨here.insert name new, around⟩

theorem all_setIn {name : String} {v : Value} (new : P v) {frames : List (Frame Value)}
    (h : ∀ f ∈ frames, f.All P) : ∀ f ∈ setIn name v frames, f.All P := by
  induction frames with
  | nil => exact h
  | cons frame frames ih =>
    obtain ⟨here, around⟩ := List.forall_mem_cons.1 h
    rw [setIn]
    split
    · exact List.forall_mem_cons.2 ⟨here.set name new, around⟩
    · exact List.forall_mem_cons.2 ⟨here, ih around⟩

theorem All.set (h : s.All P) (name : String) {v : Value} (new : P v) : (s.set name v).All P := by
  obtain ⟨here, around⟩ := List.forall_mem_cons.1 h
  unfold Scopes.set
  split
  · exact List.forall_mem_cons.2 ⟨here.set name new, around⟩
  · exact List.forall_mem_cons.2 ⟨here, all_setIn new around⟩

theorem All.restore (h : s.All P) (names : List String) {aside : List (String × Entry Value)}
    (kept : ∀ p ∈ aside, P p.2.payload) : (s.restore names aside).All P := by
  have erased : (names.foldl Scopes.erase s).All P := by
    induction names generalizing s with
    | nil => exact h
    | cons name names ih => exact ih (h.erase name)
  unfold Scopes.restore
  generalize names.foldl Scopes.erase s = start at erased
  induction aside generalizing start with
  | nil => exact erased
  | cons p aside ih =>
    obtain ⟨first, others⟩ := List.forall_mem_cons.1 kept
    exact ih others _ (erased.insert p.1 first)

theorem payload_of_findIn {name : String} {frames : List (Frame Value)}
    (h : ∀ f ∈ frames, f.All P) {entry : Entry Value} {owner : Nat}
    (found : findIn name frames = some (entry, owner)) : P entry.payload := by
  induction frames with
  | nil => cases found
  | cons frame frames ih =>
    obtain ⟨here, around⟩ := List.forall_mem_cons.1 h
    rw [findIn] at found
    split at found
    next bound =>
      cases found
      exact here name _ bound
    next => exact ih around found

theorem All.payload (h : s.All P) {name : String} {entry : Entry Value} {owner : Nat}
    (found : s.find? name = some (entry, owner)) : P entry.payload :=
  payload_of_findIn h found

end Scopes

/-! ### Steps -/

/-- All names in scope are bound to built values. -/
def Machine.Built {σ : Type} (m : Machine σ) : Prop :=
  m.scopes.All Value.Built

theorem Machine.built_init {σ : Type} (sink : σ) : (Machine.init sink).Built :=
  Scopes.all_root

namespace EvalM

variable {σ α β : Type} {W : α → Prop}

/-- Evaluation leaves built values in scope, whether or not it comes to an end; if it does, then to
a result with `W`. -/
def Builds (W : α → Prop) (x : EvalM σ α) : Prop :=
  ∀ m, m.Built → x.Ends m (fun a m' => W a ∧ m'.Built) Machine.Built

/-- A result that carries a built value. -/
abbrev Carries (r : Control Value) : Prop :=
  r.value.Built

theorem builds_pure {a : α} (h : W a) : Builds W (pure a : EvalM σ α) :=
  fun _ built => ⟨h, built⟩

theorem Builds.bind {x : EvalM σ α} {f : α → EvalM σ β} {W' : β → Prop} (first : Builds W x)
    (rest : ∀ a, W a → Builds W' (f a)) : Builds W' (x >>= f) := by
  intro m built
  rw [ends_bind]
  exact (first m built).mono (fun a m' both => rest a both.1 m' both.2) fun _ out => out

/-- Goes on with a value that stands in. -/
theorem builds_reported (cause : RuntimeError) (span : Span) {a : α} (h : W a) :
    Builds W (do report cause span; pure a : EvalM σ α) :=
  fun _ built => ⟨h, built⟩

theorem builds_nested {x : EvalM σ (Control Value)} (h : Builds Carries x) (span : Span) :
    Builds Carries (nested span x) := by
  intro m built
  rw [ends_nested]
  split
  · exact ⟨.none, built⟩
  · exact h m.deeper built

theorem builds_inScope {x : EvalM σ α} (h : Builds W x) : Builds W (inScope x) := by
  intro m built
  rw [ends_inScope]
  exact (h m.entered (Scopes.All.enter built)).mono
    (fun a m' both => ⟨both.1, Scopes.All.exit both.2⟩) fun _ out => out

theorem builds_asValue {x : EvalM σ (Control Value)} (h : Builds Carries x) :
    Builds Value.Built (asValue x) :=
  h.bind fun _ carries => builds_pure carries

theorem builds_untilExit {x : EvalM σ (Control Value)} (h : Builds Carries x) (rounds : Nat) :
    Builds Value.Built (untilExit x rounds) := by
  induction rounds with
  | zero => exact fun _ built => built
  | succ rounds ih =>
    rw [untilExit]
    apply h.bind
    intro result carries
    split
    · exact builds_pure carries
    · exact ih

theorem builds_lookup (ident : Ident) : Builds Value.Built (lookup ident : EvalM σ Value) := by
  intro m built
  rw [ends_lookup]
  split
  next found => exact ⟨built.payload found, built⟩
  next => exact ⟨.none, built⟩

theorem builds_declare (binding : Binding) (name : Ident) (declared : Ty) {v : Value}
    (hv : v.Built) (span : Span) :
    Builds Value.Built (declare binding name declared v span : EvalM σ Value) := by
  intro m built
  rw [ends_declare]
  split
  · exact ⟨hv, built.insert _ hv⟩
  · exact ⟨declared.built_zero, built.insert _ declared.built_zero⟩

theorem builds_assign (target : Ident) {v : Value} (hv : v.Built) :
    Builds (fun _ => True) (assign target v : EvalM σ Unit) := by
  intro m built
  rw [ends_assign]
  split
  · exact ⟨trivial, built⟩
  · split
    · exact ⟨trivial, built⟩
    · split
      · exact ⟨trivial, built⟩
      · exact ⟨trivial, built.set _ hv⟩

theorem builds_setAside (name : String) :
    Builds (fun old => ∀ entry ∈ old, entry.payload.Built) (setAside name : EvalM σ _) := by
  intro m built
  refine ⟨?_, built.erase name⟩
  intro entry bound
  exact built _ (List.mem_cons_self ..) name entry bound

theorem builds_restore (names : List String) {aside : List (String × Entry Value)}
    (kept : ∀ p ∈ aside, p.2.payload.Built) :
    Builds (fun _ => True)
      (modify fun m => { m with scopes := m.scopes.restore names aside } : EvalM σ Unit) :=
  fun _ built => ⟨trivial, built.restore names kept⟩

theorem builds_binary (op : BinaryOp) {l r : Value} (hl : l.Built) (hr : r.Built) (span : Span) :
    Builds Value.Built (op.eval l r span : EvalM σ Value) := by
  intro m built
  rw [Ends, op.run_eval]
  cases result : op.apply l r with
  | ok v =>
    have outcome := op.outcome_apply l r
    rw [result] at outcome
    exact ⟨outcome.built hl hr, built⟩
  | error e =>
    refine ⟨?_, built⟩
    split
    · exact .bool false
    · exact Ty.built_zero _

theorem builds_unary (op : UnaryOp) {v : Value} (hv : v.Built) (span : Span) :
    Builds Value.Built (op.eval v span : EvalM σ Value) := by
  intro m built
  rw [Ends, op.run_eval]
  cases result : op.apply v with
  | ok w =>
    have outcome := op.outcome_apply v
    rw [result] at outcome
    exact ⟨outcome.built hv hv, built⟩
  | error e => exact ⟨Ty.built_zero _, built⟩

theorem builds_choice (value : Value) (span : Span) {x y : EvalM σ (Control Value)}
    (yes : Builds Carries x) (no : Builds Carries y) :
    Builds Carries (match value with
      | .bool true => x
      | .bool false => y
      | other => do
        report (.nonBoolCondition other.type) span
        pure (.normal .none)) := by
  split
  · exact yes
  · exact no
  · exact builds_reported _ _ .none

variable [Sink σ]

theorem builds_write (piece : String) : Builds (fun _ => True) (write piece : EvalM σ Unit) :=
  fun _ built => ⟨trivial, built⟩

theorem builds_writeLine (text : String) :
    Builds (fun _ => True) (writeLine text : EvalM σ Unit) :=
  (builds_write text).bind fun _ _ => builds_write "\n"

omit [Sink σ] in
theorem builds_forM {f : Value → EvalM σ PUnit} (each : ∀ v, Builds (fun _ => True) (f v))
    (values : List Value) : Builds (fun _ => True) (values.forM f) := by
  induction values with
  | nil => exact builds_pure trivial
  | cons v values ih => exact (each v).bind fun _ _ => ih

/-- A call comes to no value, or to a number. -/
theorem builds_call (f : Builtin) (arguments : List Value) :
    Builds (fun result => ∀ v, result = .ok v → v.Built) (f.call arguments : EvalM σ _) := by
  have done : Builds (fun result => ∀ v, result = .ok v → v.Built)
      (pure (.ok .none) : EvalM σ (Except RuntimeError Value)) :=
    builds_pure fun v eq => by cases eq; exact .none
  cases f with
  | print => exact (builds_forM (fun v => builds_write v.render) arguments).bind fun _ _ => done
  | println =>
    have lines := (builds_forM (fun v => builds_writeLine (σ := σ) v.render) arguments).bind
      fun _ _ => done
    rw [Builtin.call]
    split
    · exact (builds_writeLine "").bind fun _ _ => lines
    · exact lines
  | len =>
    rcases arguments with _ | ⟨v, _ | ⟨w, rest⟩⟩
    · exact builds_pure fun _ eq => by cases eq
    · rw [Builtin.call]
      cases v.len with
      | ok n => exact builds_pure fun _ eq => by cases eq; exact .int _
      | error e => exact builds_pure fun _ eq => by cases eq
    · exact builds_pure fun _ eq => by cases eq

end EvalM

/-! ### Whole runs -/

open EvalM

section Syntax

variable {σ : Type} [Sink σ] {rounds : Nat}

theorem Expr.builds_evalAll {es : List Expr}
    (h : ∀ e ∈ es, Builds Carries (e.eval rounds : EvalM σ _)) :
    Builds (fun values => ∀ v ∈ values, v.Built) (Expr.evalAll rounds es : EvalM σ _) := by
  induction es with
  | nil => exact builds_pure (by simp)
  | cons e rest ih =>
    obtain ⟨first, others⟩ := List.forall_mem_cons.1 h
    rw [Expr.evalAll]
    apply (builds_asValue first).bind
    intro value built
    apply (ih others).bind
    intro values all
    exact builds_pure (List.forall_mem_cons.2 ⟨built, all⟩)

theorem Expr.builds_evalEntries {entries : List (Expr × Expr)}
    (h : ∀ e ∈ entries, Builds Carries (e.1.eval rounds : EvalM σ _) ∧
      Builds Carries (e.2.eval rounds : EvalM σ _)) :
    Builds (fun pairs => ∀ p ∈ pairs, p.1.Built ∧ p.2.Built)
      (Expr.evalEntries rounds entries : EvalM σ _) := by
  induction entries with
  | nil => exact builds_pure (by simp)
  | cons entry rest ih =>
    obtain ⟨⟨first, second⟩, others⟩ := List.forall_mem_cons.1 h
    obtain ⟨key, value⟩ := entry
    rw [Expr.evalEntries]
    apply (builds_asValue first).bind
    intro k hk
    apply (builds_asValue second).bind
    intro v hv
    apply (ih others).bind
    intro pairs all
    exact builds_pure (List.forall_mem_cons.2 ⟨⟨hk, hv⟩, all⟩)

theorem Expr.builds_evalStatements {statements : List Expr}
    (h : ∀ s ∈ statements, Builds Carries (s.eval rounds : EvalM σ _)) :
    Builds Carries (Expr.evalStatements rounds statements : EvalM σ _) := by
  induction statements with
  | nil => exact builds_pure .none
  | cons statement rest ih =>
    obtain ⟨first, others⟩ := List.forall_mem_cons.1 h
    rw [Expr.evalStatements]
    apply first.bind
    intro result carries
    split
    · exact builds_pure carries
    · exact ih others

theorem Block.builds_eval {body : Block}
    (h : ∀ s ∈ body.statements, Builds Carries (s.eval rounds : EvalM σ _)) :
    Builds Carries (body.eval rounds : EvalM σ _) := by
  rw [Block.eval_eq]
  exact builds_inScope (Expr.builds_evalStatements h)

theorem Declaration.builds_eval {d : Declaration}
    (h : Builds Carries (d.value.eval rounds : EvalM σ _)) :
    Builds Value.Built (d.eval rounds : EvalM σ _) := by
  obtain ⟨binding, name, type, value, span⟩ := d
  rw [Declaration.eval]
  apply (builds_asValue h).bind
  intro v hv
  exact builds_declare _ _ _ hv _

/-- What is set aside for the variables of a loop was in scope. -/
theorem Declaration.builds_evalVariables {vars : List Declaration}
    (h : ∀ d ∈ vars, Builds Carries (d.value.eval rounds : EvalM σ _)) (earlier : List String) :
    Builds (fun aside => ∀ p ∈ aside, p.2.payload.Built)
      (Declaration.evalVariables rounds earlier vars : EvalM σ _) := by
  induction vars generalizing earlier with
  | nil => exact builds_pure (by simp)
  | cons d rest ih =>
    obtain ⟨first, others⟩ := List.forall_mem_cons.1 h
    rw [Declaration.evalVariables]
    apply (builds_setAside _).bind
    intro previous old
    apply (Declaration.builds_eval first).bind
    intro _ _
    apply (ih others _).bind
    intro aside kept
    cases previous with
    | none => exact builds_pure kept
    | some entry =>
      -- A name that an earlier variable has is not set aside again.
      apply builds_pure
      split
      · exact kept
      · exact List.forall_mem_cons.2 ⟨old entry rfl, kept⟩

theorem Conditional.builds_eval (branches : Conditional)
    (h : ∀ e ∈ branches.children, Builds Carries (e.eval rounds : EvalM σ _)) :
    Builds Carries (branches.eval rounds : EvalM σ _) := by
  cases branches with
  | only condition body =>
    obtain ⟨first, inside⟩ := List.forall_mem_cons.1 h
    rw [Conditional.eval]
    apply (builds_asValue first).bind
    intro value _
    exact builds_choice value _ (Block.builds_eval inside) (builds_pure .none)
  | withElse condition body otherwise =>
    obtain ⟨first, inside⟩ := List.forall_mem_cons.1 h
    obtain ⟨left, right⟩ := List.forall_mem_append.1 inside
    rw [Conditional.eval]
    apply (builds_asValue first).bind
    intro value _
    exact builds_choice value _ (Block.builds_eval left) (Block.builds_eval right)
  | withElseIf condition body next nextSpan =>
    obtain ⟨first, inside⟩ := List.forall_mem_cons.1 h
    obtain ⟨left, right⟩ := List.forall_mem_append.1 inside
    rw [Conditional.eval]
    apply (builds_asValue first).bind
    intro value _
    exact builds_choice value _ (Block.builds_eval left) (next.builds_eval right)

/-- Evaluation comes to built values, and keeps the names in scope bound to such. -/
theorem Expr.builds_eval (e : Expr) : Builds Carries (e.eval rounds : EvalM σ _) := by
  induction e using Expr.childInduction with
  | step e inside =>
  cases e with
  | literal value =>
    rw [Expr.eval]
    apply builds_nested
    exact builds_pure value.built_value
  | list items =>
    rw [Expr.eval]
    apply builds_nested
    exact (Expr.builds_evalAll inside).bind fun _ all => builds_pure (.list _ all)
  | map entries =>
    have parts : ∀ entry ∈ entries, Builds Carries (entry.1.eval rounds : EvalM σ _) ∧
        Builds Carries (entry.2.eval rounds : EvalM σ _) := by
      intro entry among
      constructor
      · exact inside _ (List.mem_flatMap.2 ⟨entry, among, by simp⟩)
      · exact inside _ (List.mem_flatMap.2 ⟨entry, among, by simp⟩)
    rw [Expr.eval]
    apply builds_nested
    exact (Expr.builds_evalEntries parts).bind fun _ all =>
      builds_pure (Value.built_mapOfPairs _ _ all)
  | name ident =>
    rw [Expr.eval]
    apply builds_nested
    exact (builds_lookup ident).bind fun _ built => builds_pure built
  | unary op operand =>
    rw [Expr.eval]
    apply builds_nested
    apply (builds_asValue (inside operand (by simp [children]))).bind
    intro value hv
    exact (builds_unary op hv _).bind fun _ built => builds_pure built
  | binary op lhs rhs =>
    rw [Expr.eval]
    apply builds_nested
    apply (builds_asValue (inside lhs (by simp [children]))).bind
    intro left hl
    apply (builds_asValue (inside rhs (by simp [children]))).bind
    intro right hr
    exact (builds_binary op hl hr _).bind fun _ built => builds_pure built
  | declare d =>
    rw [Expr.eval]
    apply builds_nested
    exact (Declaration.builds_eval (inside d.value (by simp [children]))).bind
      fun _ built => builds_pure built
  | assign target value =>
    rw [Expr.eval]
    apply builds_nested
    apply (builds_asValue (inside value (by simp [children]))).bind
    intro written built
    exact (builds_assign target built).bind fun _ _ => builds_pure built
  | block body =>
    rw [Expr.eval]
    exact builds_nested (Block.builds_eval inside) _
  | cond branches =>
    rw [Expr.eval]
    exact builds_nested (branches.builds_eval inside) _
  | loop vars body =>
    obtain ⟨values, statements⟩ := List.forall_mem_append.1 inside
    have initial : ∀ d ∈ vars, Builds Carries (d.value.eval rounds : EvalM σ _) :=
      fun d among => values d.value (List.mem_map_of_mem among)
    rw [Expr.eval]
    apply builds_nested
    apply (Declaration.builds_evalVariables initial []).bind
    intro aside kept
    apply (builds_untilExit (Block.builds_eval statements) rounds).bind
    intro value built
    exact (builds_restore _ kept).bind fun _ _ => builds_pure built
  | exit kind value =>
    cases value with
    | none =>
      rw [Expr.eval]
      exact builds_nested (builds_pure (by cases kind <;> exact .none)) _
    | some value =>
      rw [Expr.eval]
      apply builds_nested
      apply (builds_asValue (inside value (by simp [children]))).bind
      intro v built
      exact builds_pure (by cases kind <;> exact built)
  | call callee arguments =>
    rw [Expr.eval]
    apply builds_nested
    apply (Expr.builds_evalAll inside).bind
    intro values _
    split
    · exact builds_reported _ _ .none
    · apply (builds_call _ values).bind
      intro result built
      cases result with
      | ok value => exact builds_pure (built value rfl)
      | error cause => exact builds_reported cause _ .none

end Syntax

end ExprLang
