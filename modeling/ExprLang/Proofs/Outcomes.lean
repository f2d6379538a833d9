import ExprLang.Proofs.EvalRun
import ExprLang.Proofs.WellTyped

set_option autoImplicit false

/-!
What operators come to. An operator is a function of its operands; evaluation only adds that a
failure is noted and that something stands in for the result. What any of these functions can give
is said here, once: where a result holds parts, they are parts of the operands.
-/

namespace ExprLang

/-! ### Operators as functions -/

/-- What an operator comes to, before trouble is noted. -/
def BinaryOp.apply (op : BinaryOp) (l r : Value) : Except OperationError Value :=
  match op with
  | add => l.add r
  | subtract => l.subtract r
  | multiply => l.multiply r
  | divide => l.divide r
  | modulo => l.modulo r
  | index => l.index r
  | and => (l.test op Bool.and r).map .bool
  | or => (l.test op Bool.or r).map .bool
  | equal => .ok (.bool (l.equal r))
  | greater | less | greaterEqual | lessEqual => ((l.compare op r).map op.holds).map .bool

def UnaryOp.apply (op : UnaryOp) (v : Value) : Except OperationError Value :=
  match op with
  | minus => v.negate
  | not => v.not

section Evaluation

variable {σ : Type} (m : Machine σ)

theorem EvalM.run_settle (result : Except OperationError Value) (span : Span) :
    (settle result span).run m =
      match result with
      | .ok v => .ok v m
      | .error e => .ok e.fallback.zero (m.noted (.operation e) span) := by
  cases result <;> rfl

theorem EvalM.run_settleTest (result : Except OperationError Bool) (span : Span) :
    (settleTest result span).run m =
      match result.map Value.bool with
      | .ok v => .ok v m
      | .error e => .ok (.bool false) (m.noted (.operation e) span) := by
  cases result <;> rfl

/-- A failed operation is noted, and the zero of the fallback type stands in; a failed test or
comparison counts as false. -/
theorem BinaryOp.run_eval (op : BinaryOp) (l r : Value) (span : Span) :
    (op.eval l r span).run m =
      match op.apply l r with
      | .ok v => .ok v m
      | .error e =>
        .ok (if op.isTest || op.isComparison then .bool false else e.fallback.zero)
          (m.noted (.operation e) span) := by
  cases op with
  | add | subtract | multiply | divide | modulo | index => exact EvalM.run_settle m _ span
  | equal => rfl
  | and | or | greater | less | greaterEqual | lessEqual => exact EvalM.run_settleTest m _ span

theorem UnaryOp.run_eval (op : UnaryOp) (v : Value) (span : Span) :
    (op.eval v span).run m =
      match op.apply v with
      | .ok w => .ok w m
      | .error e => .ok e.fallback.zero (m.noted (.operation e) span) := by
  cases op <;> exact EvalM.run_settle m _ span

theorem Builtin.run_len [Sink σ] (v : Value) :
    (Builtin.len.call [v]).run m =
      .ok (match v.len with
        | .ok n => .ok (.int n)
        | .error e => .error (.operation e)) m := by
  rw [Builtin.call]
  cases v.len <;> rfl

end Evaluation

/-! ### Results -/

namespace Value

/-- What an operation on `l` and `r` can come to. -/
inductive Outcome (l r : Value) : Except OperationError Value → Prop where
  | int (n : Int) : Outcome l r (.ok (int n))
  | dec (d : Decimal) : Outcome l r (.ok (dec d))
  | str (s : String) : Outcome l r (.ok (str s))
  | bool (b : Bool) : Outcome l r (.ok (bool b))
  | items {t : Ty} {xs ys zs : List Value} (left : l = list t xs) (right : r = list t ys)
      (among : ∀ z ∈ zs, z ∈ xs ∨ z ∈ ys) : Outcome l r (.ok (list t zs))
  | item {t : Ty} {xs : List Value} {v : Value} (left : l = list t xs) (inside : v ∈ xs) :
    Outcome l r (.ok v)
  | entry {key value : Ty} {entries : List (Value × Value)} {k v : Value}
      (left : l = map key value entries) (inside : (k, v) ∈ entries) : Outcome l r (.ok v)
  | missing {key value : Ty} {entries : List (Value × Value)} (left : l = map key value entries) :
    Outcome l r (.ok value.zero)
  | outOfRange {t : Ty} {xs : List Value} {position : Int} {length : Nat} (left : l = list t xs) :
    Outcome l r (.error (.indexOutOfRange position length t))
  | failed {e : OperationError} (fallback : e.fallback.WellFormed) : Outcome l r (.error e)

variable (l r : Value)

theorem outcome_add : Outcome l r (l.add r) := by
  unfold add
  split
  next => exact .int _
  next => exact .dec _
  next =>
    split
    next => exact .str _
    next =>
      split
      next same =>
        subst same
        exact .items rfl rfl fun z inside => List.mem_append.1 inside
      next => exact .failed .none
    next => exact .failed .none

theorem outcome_subtract : Outcome l r (l.subtract r) := by
  unfold subtract
  split
  next => exact .int _
  next => exact .dec _
  next =>
    split
    next => exact .str _
    next =>
      split
      next same =>
        subst same
        exact .items rfl rfl fun z inside => .inl (List.mem_filter.1 inside).1
      next => exact .failed .none
    next => exact .failed .none

theorem outcome_multiply : Outcome l r (l.multiply r) := by
  unfold multiply
  split
  next => exact .int _
  next => exact .dec _
  next => exact .failed .none

theorem outcome_divide : Outcome l r (l.divide r) := by
  unfold divide
  split
  next =>
    split
    · exact .failed .int
    · exact .int _
  next =>
    split
    · exact .failed .dec
    · exact .dec _
  next => exact .failed .none

theorem outcome_modulo : Outcome l r (l.modulo r) := by
  unfold modulo
  split
  next =>
    split
    · exact .failed .int
    · exact .int _
  next => exact .failed .none

theorem outcome_index : Outcome l r (l.index r) := by
  unfold index
  split
  next =>
    split
    next => exact .str _
    next => exact .failed .str
  next =>
    split
    next found => exact .item rfl (mem_of_at? found)
    next => exact .outOfRange rfl
  next _ value entries =>
    cases found : lookup entries r with
    | none => exact .missing rfl
    | some v =>
      obtain ⟨k, inside⟩ := mem_of_lookup found
      exact .entry rfl inside
  next => exact .failed .none
  next => exact .failed .none
  next => exact .failed .none

theorem outcome_test (op : BinaryOp) (f : Bool → Bool → Bool) :
    Outcome l r ((l.test op f r).map .bool) := by
  unfold test
  split
  next => exact .bool _
  next => exact .failed .none

theorem outcome_compare (op : BinaryOp) (f : Ordering → Bool) :
    Outcome l r (((l.compare op r).map f).map .bool) := by
  unfold compare
  split
  next => exact .bool _
  next => exact .bool _
  next =>
    split
    next => exact .bool _
    next => exact .failed .none

end Value

theorem BinaryOp.outcome_apply (op : BinaryOp) (l r : Value) :
    Value.Outcome l r (op.apply l r) := by
  cases op with
  | add => exact l.outcome_add r
  | subtract => exact l.outcome_subtract r
  | multiply => exact l.outcome_multiply r
  | divide => exact l.outcome_divide r
  | modulo => exact l.outcome_modulo r
  | index => exact l.outcome_index r
  | and | or => exact l.outcome_test r _ _
  | equal => exact .bool _
  | greater | less | greaterEqual | lessEqual => exact l.outcome_compare r _ _

/-- An operator on one operand gives a value without parts, or has nothing to fall back on. -/
theorem UnaryOp.outcome_apply (op : UnaryOp) (v : Value) : Value.Outcome v v (op.apply v) := by
  cases op with
  | minus =>
    cases v with
    | int n => exact .int _
    | dec d => exact .dec _
    | _ => exact .failed .none
  | not =>
    cases v with
    | bool b => exact .bool _
    | _ => exact .failed .none

end ExprLang
