import ExprLang.Proofs.Soundness.Agreement
import Mathlib.Data.List.Forall2

set_option autoImplicit false

/-!
The single steps of checking and evaluation, side by side: operators, names, declarations,
assignments and calls.
-/

namespace ExprLang

namespace Soundness

variable {σ : Type} {typed : Prop} {base : Array (Located RuntimeError)} {c : Checker}
  {m : Machine σ}

/-- The machine comes to a value of the type, and still agrees with the checker. -/
theorem ends_settle {t : Ty} {result : Except OperationError Value} (span : Span)
    (agree : Agree typed base c m) (h : typed → Delivers t result) :
    (EvalM.settle result span).Ends m
      (fun v m' => Agree typed base c m' ∧ (typed → v.HasType t)) (Foreseen typed base) := by
  rw [EvalM.ends_settle]
  cases result with
  | ok v => exact ⟨agree, h⟩
  | error error => exact ⟨agree.noted span ⟨rfl, fun ht => (h ht).1⟩, fun ht => (h ht).2⟩

theorem ends_settleTest {result : Except OperationError Bool} (span : Span)
    (agree : Agree typed base c m) (h : typed → ∃ b, result = .ok b) :
    (EvalM.settleTest result span).Ends m
      (fun v m' => Agree typed base c m' ∧ (typed → v.HasType .bool)) (Foreseen typed base) := by
  rw [EvalM.ends_settleTest]
  cases result with
  | ok b => exact ⟨agree, fun _ => Value.hasType_bool b⟩
  | error error =>
    refine ⟨agree.noted span ⟨rfl, fun ht => ?_⟩, fun _ => Value.hasType_bool false⟩
    obtain ⟨b, absurd⟩ := h ht
    cases absurd

end Soundness

theorem Literal.value_hasType (l : Literal) : l.value.HasType l.type := by
  cases l with
  | int n => exact Value.hasType_int n
  | dec d => exact Value.hasType_dec d
  | str s => exact Value.hasType_str s
  | bool b => exact Value.hasType_bool b

/-- Tests are of truth values. -/
theorem BinaryOp.test_accepted {op : BinaryOp} (test : op = .and ∨ op = .or) {s t : Ty}
    {site : Unit → String} (accepted : (op.verdict s t site).complaint = none) :
    s.name = .bool ∧ t.name = .bool := by
  have eq : op.verdict s t site = if s.name = .bool ∧ t.name = .bool then .accept .bool
      else .reject .bool (.testOperands op.name s t) := by
    rcases test with rfl | rfl <;> rfl
  rw [eq] at accepted
  split at accepted
  next both => exact both
  next => cases accepted

/-- Comparisons are of two values of one type that has an order. -/
theorem BinaryOp.comparison_accepted {op : BinaryOp}
    (comparison : op ∈ [greater, less, greaterEqual, lessEqual]) {s t : Ty} {site : Unit → String}
    (accepted : (op.verdict s t site).complaint = none) : s = t ∧ s.isComparable = true := by
  have eq : op.verdict s t site =
      if s ≠ t then .reject .bool (.mismatchedTypes s t (site ()))
      else if s.isComparable then .accept .bool
      else .reject .bool (.notComparable op.name s t) := by
    simp only [List.mem_cons, List.not_mem_nil, or_false] at comparison
    rcases comparison with rfl | rfl | rfl | rfl <;> rfl
  rw [eq] at accepted
  split at accepted
  next => cases accepted
  next same =>
    split at accepted
    next comparable => exact ⟨Decidable.not_not.1 same, comparable⟩
    next => cases accepted

/-- Tests and comparisons give truth values. -/
theorem BinaryOp.verdict_type_bool {op : BinaryOp} (h : (op.isTest || op.isComparison) = true)
    (s t : Ty) (site : Unit → String) : (op.verdict s t site).type = .bool := by
  cases op with
  | and | or | equal =>
    simp only [verdict]
    split <;> rfl
  | greater | less | greaterEqual | lessEqual =>
    simp only [verdict]
    split
    · rfl
    · split <;> rfl
  | _ => cases h

/-- The length is of one thing that has positions or keys. -/
theorem Builtin.len_accepted {types : List Ty}
    (accepted : (Builtin.len.verdict types).complaint = none) :
    ∃ t, types = [t] ∧ t.isIndexable = true ∧ (Builtin.len.verdict types).type = .int := by
  match types with
  | [t] =>
    simp only [verdict] at accepted ⊢
    split at accepted
    next indexable => exact ⟨t, rfl, indexable, by rw [if_pos indexable]; rfl⟩
    next => cases accepted
  | [] => cases accepted
  | _ :: _ :: _ => cases accepted

theorem Value.test_succeeds {l r : Value} {s t : Ty} (op : BinaryOp) (f : Bool → Bool → Bool)
    (hl : l.HasType s) (hr : r.HasType t) (left : s.name = .bool) (right : t.name = .bool) :
    ∃ b, l.test op f r = .ok b := by
  obtain ⟨a, rfl, -⟩ := hl.truth left
  obtain ⟨b, rfl, -⟩ := hr.truth right
  exact ⟨f a b, rfl⟩

namespace Soundness

variable {σ : Type} {typed : Prop} {base : Array (Located RuntimeError)} {c : Checker}
  {m : Machine σ}

/-- A comparison that the checker accepts succeeds. -/
theorem comparison_succeeds {op : BinaryOp} {l r : Value} {s t : Ty} {site : Unit → String}
    (comparison : op ∈ [BinaryOp.greater, .less, .greaterEqual, .lessEqual]) (hl : l.HasType s)
    (hr : r.HasType t) (accepted : (op.verdict s t site).complaint = none) :
    ∃ b, (l.compare op r).map op.holds = .ok b := by
  obtain ⟨rfl, comparable⟩ := BinaryOp.comparison_accepted comparison accepted
  obtain ⟨order, eq⟩ := Value.compare_succeeds op hl hr comparable
  exact ⟨op.holds order, by rw [eq]; rfl⟩

theorem ends_binary {op : BinaryOp} {l r : Value} {s t : Ty} {site : Unit → String} (span : Span)
    (agree : Agree typed base c m) (hl : typed → l.HasType s) (hr : typed → r.HasType t)
    (accepted : (op.verdict s t site).complaint = none) :
    (op.eval l r span).Ends m
      (fun v m' => Agree typed base c m' ∧ (typed → v.HasType (op.verdict s t site).type))
      (Foreseen typed base) := by
  cases op with
  | add => exact ends_settle span agree fun ht => Value.add_delivers (hl ht) (hr ht) accepted
  | subtract =>
    exact ends_settle span agree fun ht => Value.subtract_delivers (hl ht) (hr ht) accepted
  | multiply =>
    exact ends_settle span agree fun ht => Value.multiply_delivers (hl ht) (hr ht) accepted
  | divide => exact ends_settle span agree fun ht => Value.divide_delivers (hl ht) (hr ht) accepted
  | modulo => exact ends_settle span agree fun ht => Value.modulo_delivers (hl ht) (hr ht) accepted
  | index => exact ends_settle span agree fun ht => Value.index_delivers (hl ht) (hr ht) accepted
  | and =>
    obtain ⟨left, right⟩ := BinaryOp.test_accepted (.inl rfl) accepted
    rw [BinaryOp.verdict_type_bool rfl]
    exact ends_settleTest span agree fun ht => Value.test_succeeds _ _ (hl ht) (hr ht) left right
  | or =>
    obtain ⟨left, right⟩ := BinaryOp.test_accepted (.inr rfl) accepted
    rw [BinaryOp.verdict_type_bool rfl]
    exact ends_settleTest span agree fun ht => Value.test_succeeds _ _ (hl ht) (hr ht) left right
  | equal =>
    rw [BinaryOp.verdict_type_bool rfl]
    exact ends_settleTest span agree fun _ => ⟨_, rfl⟩
  | greater | less | greaterEqual | lessEqual =>
    rw [BinaryOp.verdict_type_bool rfl]
    exact ends_settleTest span agree fun ht =>
      comparison_succeeds (by decide) (hl ht) (hr ht) accepted

theorem ends_unary {op : UnaryOp} {v : Value} {t : Ty} (span : Span) (agree : Agree typed base c m)
    (h : typed → v.HasType t) (accepted : (op.verdict t).complaint = none) :
    (op.eval v span).Ends m
      (fun v m' => Agree typed base c m' ∧ (typed → v.HasType (op.verdict t).type))
      (Foreseen typed base) := by
  cases op with
  | minus => exact ends_settle span agree fun ht => Value.negate_delivers (h ht) accepted
  | not => exact ends_settle span agree fun ht => Value.not_delivers (h ht) accepted

section Calls

variable [Sink σ]

theorem ends_write (piece : String) (agree : Agree typed base c m) :
    (EvalM.write piece).Ends m (fun _ m' => Agree typed base c m') (Foreseen typed base) :=
  agree.machine rfl rfl agree.errors

theorem ends_writeLine (text : String) (agree : Agree typed base c m) :
    (EvalM.writeLine text).Ends m (fun _ m' => Agree typed base c m') (Foreseen typed base) := by
  rw [EvalM.writeLine, EvalM.ends_bind]
  exact (ends_write text agree).mono (fun _ m' agree => ends_write _ agree) fun _ out => out

omit [Sink σ] in
/-- Printing one thing after the other. -/
theorem ends_forM {node : Value → EvalM σ Unit}
    (h : ∀ v m, Agree typed base c m →
      (node v).Ends m (fun _ m' => Agree typed base c m') (Foreseen typed base))
    (values : List Value) (agree : Agree typed base c m) :
    (values.forM node).Ends m (fun _ m' => Agree typed base c m') (Foreseen typed base) := by
  induction values generalizing m with
  | nil => exact agree
  | cons v rest ih =>
    show (node v >>= fun _ => rest.forM node).Ends m _ _
    rw [EvalM.ends_bind]
    exact (h v m agree).mono (fun _ m' agree => ih agree) fun _ out => out

variable (typed) in
/-- The outcome of a call: a value of the type, or an error that typing excludes. -/
def Called (t : Ty) : Except RuntimeError Value → Prop
  | .ok v => typed → v.HasType t
  | .error cause => cause.isUnbound = false ∧ ¬ typed

theorem ends_call {f : Builtin} {types : List Ty} {values : List Value}
    (agree : Agree typed base c m) (h : typed → List.Forall₂ Value.HasType values types)
    (accepted : (f.verdict types).complaint = none) :
    (f.call values).Ends m
      (fun result m' => Agree typed base c m' ∧ Called typed (f.verdict types).type result)
      (Foreseen typed base) := by
  have nothing : Called typed .none (.ok .none) := fun _ => Value.hasType_none
  cases f with
  | print =>
    rw [Builtin.call, EvalM.ends_bind]
    exact (ends_forM (fun v _ => ends_write v.render) values agree).mono
      (fun _ m' agree => ⟨agree, nothing⟩) fun _ out => out
  | println =>
    have lines : ∀ m : Machine σ, Agree typed base c m →
        (values.forM (EvalM.writeLine ·.render) >>= fun _ => pure (.ok .none)).Ends m
          (fun result m' => Agree typed base c m' ∧ Called typed .none result)
          (Foreseen typed base) := by
      intro m agree
      rw [EvalM.ends_bind]
      exact (ends_forM (fun v _ => ends_writeLine v.render) values agree).mono
        (fun _ m' agree => ⟨agree, nothing⟩) fun _ out => out
    rw [Builtin.call]
    split
    · rw [EvalM.ends_bind]
      exact (ends_writeLine "" agree).mono (fun _ m' => lines m') fun _ out => out
    · exact lines m agree
  | len =>
    obtain ⟨t, rfl, indexable, type⟩ := Builtin.len_accepted accepted
    rw [type]
    match values, h with
    | [], h => exact ⟨agree, rfl, fun ht => nomatch h ht⟩
    | [v], h =>
      cases outcome : v.len with
      | ok n =>
        have eq : (Builtin.len.call [v] : EvalM σ _) = pure (.ok (.int n)) := by
          simp only [Builtin.call, outcome]
        rw [eq]
        exact ⟨agree, fun _ => Value.hasType_int n⟩
      | error error =>
        have eq : (Builtin.len.call [v] : EvalM σ _) = pure (.error (.operation error)) := by
          simp only [Builtin.call, outcome]
        rw [eq]
        refine ⟨agree, rfl, fun ht => ?_⟩
        cases h ht with
        | cons first _ =>
          obtain ⟨n, succeeds⟩ := Value.len_succeeds first indexable
          rw [outcome] at succeeds
          cases succeeds
    | _ :: _ :: _, h => exact ⟨agree, rfl, fun ht => nomatch h ht⟩

end Calls

namespace Meets

/-- A rule that is kept on one side, and what it promises on the other. -/
theorem settle {verdict : Verdict} (span : Span) {eval : EvalM σ Value}
    (h : verdict.complaint = none → Agree typed base c m → eval.Ends m
      (fun v m' => Agree typed base c m' ∧ (typed → v.HasType verdict.type))
      (Foreseen typed base)) :
    Meets typed base c m (CheckM.settle verdict span) eval (Used typed) := by
  intro agree clean
  obtain ⟨accepted, eq⟩ := CheckM.settle_of_clean clean
  rw [eq]
  exact h accepted agree

/-- A name is bound on both sides or on none. -/
theorem entries_of_find? (agree : Agree typed base c m) {name : String} {entry : Entry Ty}
    {frame : Nat} (found : c.scopes.find? name = some (entry, frame)) :
    ∃ entry' frame', m.scopes.find? name = some (entry', frame') ∧
      entry'.binding = entry.binding ∧ Holds typed entry.payload entry'.payload := by
  have slot := Scopes.FramesInStep.entryIn agree.scopes name
  rw [Scopes.entryIn_of_find? found] at slot
  rcases slot.cases with ⟨a, b, left, right, binding, holds⟩ | ⟨absurd, -⟩ | ⟨a, -, -, absurd⟩
  · cases left
    obtain ⟨⟨entry', frame'⟩, found', rfl⟩ := Option.map_eq_some_iff.1 right
    exact ⟨entry', frame', found', binding, holds⟩
  · cases absurd
  · cases absurd

theorem lookup (ident : Ident) :
    Meets typed base c m (CheckM.lookup ident) (EvalM.lookup ident) (Used typed) := by
  intro agree clean
  obtain ⟨entry, frame, found, eq⟩ := CheckM.lookup_of_clean clean
  obtain ⟨entry', frame', found', -, holds⟩ := entries_of_find? agree found
  rw [eq, EvalM.ends_lookup, found']
  exact ⟨agree, holds.2⟩

theorem assign {target : Ident} {actual : Ty} {site : Unit → String} {span : Span} {v : Value}
    (h : typed → v.HasType actual) :
    Meets typed base c m (CheckM.assign target actual site span) (EvalM.assign target v)
      (fun t _ _ => typed → v.HasType t) := by
  intro agree clean
  obtain ⟨entry, frame, found, writable, rfl, eq⟩ := CheckM.assign_of_clean clean
  obtain ⟨entry', frame', found', binding, holds⟩ := entries_of_find? agree found
  have copied : c.Kept True 0 (c.copying target.name entry frame) := .copying found
  have writable' : entry'.isConst = false := by rw [Entry.isConst, binding]; exact writable
  rw [eq, EvalM.ends_assign, found']
  simp only [writable', Bool.false_eq_true, if_false]
  split
  next other =>
    refine ⟨(agree.checker copied).noted _ ⟨rfl, fun ht => ?_⟩, h⟩
    exact absurd (holds.1.trans (h ht).type.symm) other
  next same =>
    have same := Decidable.not_not.1 same
    refine ⟨Agree.checker ⟨agree.depth, ?_, agree.live, agree.errors⟩ copied, h⟩
    exact agree.scopes.set (Scopes.entryIn_of_find? found) ⟨same.symm.trans holds.1, h⟩

theorem declare (binding : Binding) (name : Ident) (type : TypeExpr) {v : Value} (span : Span)
    (h : typed → v.HasType type.type) :
    Meets typed base c m
      (do
        CheckM.declare name.name ⟨type.type, binding⟩
        return type.type)
      (EvalM.declare binding name type.type v span) (Used typed) := by
  intro agree clean
  rw [EvalM.ends_declare]
  split
  next same => exact ⟨agree.insert name.name binding ⟨same, h⟩, h⟩
  next other =>
    have zero := Ty.zero_hasType type.type_wellFormed
    have allowed : Allowed typed (.mismatchedTypes type.type v.type) :=
      ⟨rfl, fun ht => absurd (h ht).type other⟩
    exact ⟨(agree.noted span allowed).insert name.name binding ⟨zero.type, fun _ => zero⟩,
      fun _ => zero⟩

theorem exit (kind : Exit) {t : Ty} {v : Value} (span : Span) (h : typed → v.HasType t) :
    Meets typed base c m
      (do
        CheckM.recordExit t span
        return kind.control t)
      (Pure.pure (kind.control v)) (Result typed) := by
  refine .skipped ((CheckM.balanced_recordExit _ _).bind fun _ => CheckM.balanced_pure _)
    fun agree clean ht => ?_
  have records := CheckM.records_recordExit (agree.live ht) t span clean
  cases kind with
  | return_ => exact ⟨fun _ => rfl, nofun, fun _ => ⟨t, h ht, records⟩⟩
  | break_ => exact ⟨fun _ => rfl, nofun, fun _ => ⟨t, h ht, records⟩⟩

end Meets

end Soundness

end ExprLang
