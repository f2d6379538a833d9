import ExprLang.Proofs.Outcomes
import ExprLang.Proofs.Soundness.Operation

set_option autoImplicit false

/-!
The rules of the checker and the operations of the evaluator, table against table. What a rule
accepts the operation delivers; what it rejects the operation refuses, but for comparisons and for
keys of maps, where the rules ask for more than the operations do.
-/

namespace ExprLang

/-! ### Accepted operands -/

/-- An operation gives a value of the type, all the way down, or fails in a way that no rule
excludes, and then falls back on the type. -/
def Keeps (t : Ty) : Except OperationError Value → Prop
  | .ok v => v.HasType t
  | .error e => e.isExpected = true ∧ e.fallback = t

/-- A failure falls back on a type that is well formed. -/
def FallsBack : Except OperationError Value → Prop
  | .ok _ => True
  | .error e => e.fallback.WellFormed

theorem keeps_of_delivers {t : Ty} {result : Except OperationError Value}
    (delivers : Delivers t result) (fallsBack : FallsBack result) : Keeps t result := by
  cases result with
  | ok v => exact delivers
  | error e =>
    obtain ⟨expected, zero⟩ := delivers
    refine ⟨expected, ?_⟩
    rw [← zero.type]
    exact (Ty.zero_hasType fallsBack).type.symm

theorem keeps_bool {result : Except OperationError Bool} (succeeds : ∃ b, result = .ok b) :
    Keeps .bool (result.map .bool) := by
  obtain ⟨b, rfl⟩ := succeeds
  exact Value.hasType_bool b

/-- The element type of a list is well formed if the type of the list is. -/
theorem Value.Outcome.fallsBack {l r : Value} {result : Except OperationError Value} {s : Ty}
    (h : Outcome l r result) (hl : l.HasType s) : FallsBack result := by
  obtain rfl := hl.type
  cases h with
  | outOfRange left =>
    subst left
    cases hl.wellFormed with
    | list element => exact element
  | failed fallback => exact fallback
  | _ => trivial

section Accepted

variable {l r v : Value} {s t : Ty}

theorem BinaryOp.apply_keeps {op : BinaryOp} (hl : l.HasType s) (hr : r.HasType t)
    {site : Unit → String} (accepted : (op.verdict s t site).complaint = none) :
    Keeps (op.verdict s t site).type (op.apply l r) := by
  have fallsBack := (op.outcome_apply l r).fallsBack hl
  cases op with
  | add => exact keeps_of_delivers (Value.add_delivers hl hr accepted) fallsBack
  | subtract => exact keeps_of_delivers (Value.subtract_delivers hl hr accepted) fallsBack
  | multiply => exact keeps_of_delivers (Value.multiply_delivers hl hr accepted) fallsBack
  | divide => exact keeps_of_delivers (Value.divide_delivers hl hr accepted) fallsBack
  | modulo => exact keeps_of_delivers (Value.modulo_delivers hl hr accepted) fallsBack
  | index => exact keeps_of_delivers (Value.index_delivers hl hr accepted) fallsBack
  | and =>
    obtain ⟨left, right⟩ := test_accepted (.inl rfl) accepted
    rw [verdict_type_bool rfl]
    exact keeps_bool (Value.test_succeeds _ _ hl hr left right)
  | or =>
    obtain ⟨left, right⟩ := test_accepted (.inr rfl) accepted
    rw [verdict_type_bool rfl]
    exact keeps_bool (Value.test_succeeds _ _ hl hr left right)
  | equal =>
    rw [verdict_type_bool rfl]
    exact Value.hasType_bool _
  | greater | less | greaterEqual | lessEqual =>
    rw [verdict_type_bool rfl]
    exact keeps_bool (Soundness.comparison_succeeds (by decide) hl hr accepted)

theorem UnaryOp.apply_keeps {op : UnaryOp} (hv : v.HasType t)
    (accepted : (op.verdict t).complaint = none) : Keeps (op.verdict t).type (op.apply v) := by
  have fallsBack := (op.outcome_apply v).fallsBack hv
  cases op with
  | minus => exact keeps_of_delivers (Value.negate_delivers hv accepted) fallsBack
  | not => exact keeps_of_delivers (Value.not_delivers hv accepted) fallsBack

end Accepted

/-! ### Rejected operands -/

namespace Value

theorem numbers?_eq_none {l r : Value} (other : (l.type.isNumeric && r.type.isNumeric) = false) :
    numbers? l r = Option.none := by
  cases l <;> cases r <;> first | rfl | cases other

end Value

namespace BinaryOp

variable {op : BinaryOp} {l r : Value} {site : Unit → String}

theorem sum_rejected (sum : op = add ∨ op = subtract) {s t : Ty}
    (rejected : (op.verdict s t site).complaint ≠ none) :
    (s.isNumeric && t.isNumeric) = false ∧ ¬ (s.name = .str ∧ t.name = .str) ∧
      ¬ (s.name = .list ∧ s = t) := by
  have eq : op.verdict s t site = if s.isNumeric && t.isNumeric then .accept (s.promote t)
      else if s.name = .str ∧ t.name = .str then .accept s
      else if s.name = .list ∧ s = t then .accept s
      else .reject .none (.invalidOperands op.name s t) := by
    rcases sum with rfl | rfl <;> rfl
  rw [eq] at rejected
  by_cases numeric : (s.isNumeric && t.isNumeric) = true
  · rw [if_pos numeric] at rejected
    exact absurd rfl rejected
  · by_cases texts : s.name = .str ∧ t.name = .str
    · rw [if_neg numeric, if_pos texts] at rejected
      exact absurd rfl rejected
    · by_cases lists : s.name = .list ∧ s = t
      · rw [if_neg numeric, if_neg texts, if_pos lists] at rejected
        exact absurd rfl rejected
      · exact ⟨Bool.eq_false_iff.2 numeric, texts, lists⟩

/-- Sums and differences are refused unless they are of numbers, of texts or of lists of one
type. -/
theorem refuses_sum (sum : op = add ∨ op = subtract)
    (rejected : (op.verdict l.type r.type site).complaint ≠ none) :
    op.apply l r = .error (.mismatchedTypes op.name l.type r.type) := by
  obtain ⟨numeric, texts, lists⟩ := sum_rejected sum rejected
  have none := Value.numbers?_eq_none numeric
  rcases sum with rfl | rfl
  · simp only [apply, Value.add, none]
    split
    next => exact absurd ⟨rfl, rfl⟩ texts
    next =>
      rw [if_neg fun same => lists ⟨rfl, congrArg Ty.list same⟩]
      rfl
    next => rfl
  · simp only [apply, Value.subtract, none]
    split
    next => exact absurd ⟨rfl, rfl⟩ texts
    next =>
      rw [if_neg fun same => lists ⟨rfl, congrArg Ty.list same⟩]
      rfl
    next => rfl

theorem refuses_product (product : op = multiply ∨ op = divide)
    (rejected : (op.verdict l.type r.type site).complaint ≠ none) :
    op.apply l r = .error (.mismatchedTypes op.name l.type r.type) := by
  have other : (l.type.isNumeric && r.type.isNumeric) = false := by
    by_contra numeric
    rw [Bool.not_eq_false] at numeric
    apply rejected
    rcases product with rfl | rfl <;> exact congrArg Verdict.complaint (if_pos numeric)
  have none := Value.numbers?_eq_none other
  rcases product with rfl | rfl
  · simp only [apply, Value.multiply, none]
    rfl
  · simp only [apply, Value.divide, none]
    rfl

theorem refuses_modulo (rejected : (modulo.verdict l.type r.type site).complaint ≠ none) :
    modulo.apply l r = .error (.mismatchedTypes modulo.name l.type r.type) := by
  simp only [apply]
  unfold Value.modulo
  split
  next => exact absurd rfl rejected
  next => rfl

theorem refuses_test (test : op = and ∨ op = or)
    (rejected : (op.verdict l.type r.type site).complaint ≠ none) :
    op.apply l r = .error (.mismatchedTypes op.name l.type r.type) := by
  have refused (f : Bool → Bool → Bool) :
      l.test op f r = .error (.mismatchedTypes op.name l.type r.type) := by
    unfold Value.test
    split
    next => rcases test with rfl | rfl <;> exact absurd rfl rejected
    next => rfl
  rcases test with rfl | rfl
  · rw [apply, refused]
    rfl
  · rw [apply, refused]
    rfl

/-- What is no collection cannot be indexed, and texts and lists only by integers. -/
theorem refuses_index (other : l.type.name ≠ .map)
    (rejected : (index.verdict l.type r.type site).complaint ≠ none) :
    index.apply l r = .error (.mismatchedTypes index.name l.type r.type) ∨
      index.apply l r = .error (.notIndexable l.type) := by
  cases l with
  | map => exact absurd rfl other
  | str s =>
    cases r with
    | int n => exact absurd rfl rejected
    | _ => exact .inl rfl
  | list element items =>
    cases r with
    | int n => exact absurd rfl rejected
    | _ => exact .inl rfl
  | _ => exact .inr rfl

end BinaryOp

theorem UnaryOp.refuses {op : UnaryOp} {v : Value}
    (rejected : (op.verdict v.type).complaint ≠ none) :
    op.apply v = .error (.invalidOperand op.name v.type) := by
  cases op with
  | minus =>
    cases v with
    | int | dec => exact absurd rfl rejected
    | _ => rfl
  | not =>
    cases v with
    | bool => exact absurd rfl rejected
    | _ => rfl

theorem Value.len_refuses {v : Value}
    (rejected : (Builtin.len.verdict [v.type]).complaint ≠ Option.none) :
    v.len = .error (.invalidOperand Builtin.len.name v.type) := by
  cases v with
  | str | list | map => exact absurd rfl rejected
  | _ => rfl

/-! ### Table against table -/

/-- The operators that refuse whatever their rules reject. -/
def BinaryOp.strict : List BinaryOp :=
  [add, subtract, multiply, divide, modulo, and, or]

theorem BinaryOp.refuses_strict {op : BinaryOp} (strict : op ∈ strict) {l r : Value}
    {site : Unit → String} (rejected : (op.verdict l.type r.type site).complaint ≠ none) :
    op.apply l r = .error (.mismatchedTypes op.name l.type r.type) := by
  simp only [BinaryOp.strict, List.mem_cons, List.not_mem_nil, or_false] at strict
  rcases strict with rfl | rfl | rfl | rfl | rfl | rfl | rfl
  · exact refuses_sum (.inl rfl) rejected
  · exact refuses_sum (.inr rfl) rejected
  · exact refuses_product (.inl rfl) rejected
  · exact refuses_product (.inr rfl) rejected
  · exact refuses_modulo rejected
  · exact refuses_test (.inl rfl) rejected
  · exact refuses_test (.inr rfl) rejected

/-- The rules of operators and the operations on values agree. On operands of the types that a rule
accepts, the operation gives a value of the type that the rule gives, or fails by a zero divisor or
a position out of range, with that type to fall back on. On operands of types that a rule rejects,
arithmetic, tests, the length, and indexing of anything but a map fail for their types. The
evaluator goes by these operations. -/
theorem operations_follow_rules :
    (∀ (op : BinaryOp) (a b : Value) (A B : Ty) (site : Unit → String), a.HasType A →
      b.HasType B →
        ((op.verdict A B site).complaint = none →
          Keeps (op.verdict A B site).type (op.apply a b)) ∧
        (op ∈ BinaryOp.strict → (op.verdict A B site).complaint ≠ none →
          op.apply a b = .error (.mismatchedTypes op.name A B)) ∧
        (op = .index → A.name ≠ .map → (op.verdict A B site).complaint ≠ none →
          op.apply a b = .error (.mismatchedTypes op.name A B) ∨
            op.apply a b = .error (.notIndexable A))) ∧
    (∀ (op : UnaryOp) (a : Value) (A : Ty), a.HasType A →
        ((op.verdict A).complaint = none → Keeps (op.verdict A).type (op.apply a)) ∧
        ((op.verdict A).complaint ≠ none →
          op.apply a = .error (.invalidOperand op.name A))) ∧
    (∀ (a : Value) (A : Ty), a.HasType A →
        ((Builtin.len.verdict [A]).complaint = none →
          (Builtin.len.verdict [A]).type = .int ∧ ∃ n, a.len = .ok n) ∧
        ((Builtin.len.verdict [A]).complaint ≠ none →
          a.len = .error (.invalidOperand Builtin.len.name A))) ∧
    ∀ (σ : Type) [Sink σ] (m : Machine σ) (a b : Value) (span : Span),
      (∀ op : BinaryOp, (op.eval a b span).run m =
        match op.apply a b with
        | .ok v => .ok v m
        | .error e =>
          .ok (if op.isTest || op.isComparison then .bool false else e.fallback.zero)
            (m.noted (.operation e) span)) ∧
      (∀ op : UnaryOp, (op.eval a span).run m =
        match op.apply a with
        | .ok v => .ok v m
        | .error e => .ok e.fallback.zero (m.noted (.operation e) span)) ∧
      (Builtin.len.call [a]).run m =
        .ok (match a.len with
          | .ok n => .ok (.int n)
          | .error e => .error (.operation e)) m := by
  refine ⟨?_, ?_, ?_, ?_⟩
  · intro op a b A B site ha hb
    refine ⟨BinaryOp.apply_keeps ha hb, ?_, ?_⟩
    · obtain rfl := ha.type
      obtain rfl := hb.type
      exact fun strict => BinaryOp.refuses_strict strict
    · obtain rfl := ha.type
      obtain rfl := hb.type
      rintro rfl
      exact BinaryOp.refuses_index
  · intro op a A ha
    refine ⟨UnaryOp.apply_keeps ha, ?_⟩
    obtain rfl := ha.type
    exact UnaryOp.refuses
  · intro a A ha
    constructor
    · intro accepted
      obtain ⟨t, same, indexable, type⟩ := Builtin.len_accepted accepted
      obtain rfl := List.singleton_inj.1 same
      exact ⟨type, Value.len_succeeds ha indexable⟩
    · obtain rfl := ha.type
      exact Value.len_refuses
  · intro σ _ m a b span
    exact ⟨fun op => op.run_eval m a b span, fun op => op.run_eval m a span, Builtin.run_len m a⟩

section Nested

/-- The list `[[1]]`. -/
def intsInList : Value :=
  .list (.list .int) [.list .int [.int 1]]

/-- An empty list of lists of decimals. -/
def noDecsInList : Value :=
  .list (.list .dec) []

/-- Lists that differ in type deep inside are not joined, and a position past the end falls back on
the type of the items. -/
theorem operations_on_nested_follow_rules :
    intsInList.HasType (.list (.list .int)) ∧ noDecsInList.HasType (.list (.list .dec)) ∧
    BinaryOp.add.apply intsInList noDecsInList =
      .error (.mismatchedTypes "Add" (.list (.list .int)) (.list (.list .dec))) ∧
    BinaryOp.index.apply intsInList (.int 1) = .error (.indexOutOfRange 1 1 (.list .int)) ∧
    Keeps (.list .int) (BinaryOp.index.apply intsInList (.int 1)) := by
  have ints : intsInList.HasType (.list (.list .int)) := by
    apply Value.hasType_list (.list .int)
    intro item inside
    obtain rfl := List.mem_singleton.1 inside
    apply Value.hasType_list .int
    intro item inside
    obtain rfl := List.mem_singleton.1 inside
    exact Value.hasType_int 1
  have decs : noDecsInList.HasType (.list (.list .dec)) :=
    Value.hasType_list (.list .dec) (List.forall_mem_nil _)
  obtain ⟨rules, -⟩ := operations_follow_rules
  obtain ⟨-, refused, -⟩ := rules .add _ _ _ _ (fun _ => "") ints decs
  obtain ⟨kept, -⟩ := rules .index _ _ _ _ (fun _ => "") ints (Value.hasType_int 1)
  refine ⟨ints, decs, refused (by decide) ?_, rfl, kept rfl⟩
  intro accepted
  cases accepted

end Nested

end ExprLang
