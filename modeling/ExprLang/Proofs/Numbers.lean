import ExprLang.Eval.Machine
import ExprLang.Proofs.Equality
import Mathlib.Algebra.Order.Field.Power
import Mathlib.Algebra.Order.Ring.Rat
import Mathlib.Order.Compare
import Mathlib.Tactic.Linarith
import Mathlib.Tactic.Ring

set_option autoImplicit false

/-!
The rational numbers that integers and decimals stand for. Arithmetic on values is arithmetic on
these, whatever the form of the operands, and comparisons tell their order. The one limit is on the
scale of a product, which has to fit in 64 bits.
-/

namespace ExprLang

/-! ### Decimals -/

namespace Decimal

/-- The number itself. -/
def toRat (d : Decimal) : ℚ :=
  d.digits * 10 ^ (-d.scale)

theorem pow10_cast (n : Nat) : (pow10 n : ℚ) = 10 ^ n := by
  simp [pow10]

theorem unit_pos (s : Int) : (0 : ℚ) < 10 ^ s :=
  zpow_pos (by norm_num) s

/-- A scale that can be kept as it is. -/
def Fits (scale : Int) : Prop :=
  Int64.minValue.toInt ≤ scale ∧ scale ≤ Int64.maxValue.toInt

instance (scale : Int) : Decidable (Fits scale) :=
  inferInstanceAs (Decidable (_ ∧ _))

theorem Fits.wrapScale {scale : Int} (fits : Fits scale) : wrapScale scale = scale := by
  obtain ⟨low, high⟩ := fits
  rw [Int64.toInt_minValue] at low
  rw [Int64.toInt_maxValue] at high
  exact Int64.toInt_ofInt_of_le low (Int.lt_of_le_sub_one high)

theorem toRat_ofInt (n : Int) : (ofInt n).toRat = n := by
  simp [toRat, ofInt]

theorem toRat_eq_at {d : Decimal} {s : Int} (le : d.scale ≤ s) :
    d.toRat = d.digitsAt s * 10 ^ (-s) := by
  obtain ⟨n, rfl⟩ := Int.le.dest le
  have shift : (d.scale + n - d.scale).toNat = n := by omega
  have units : (10 : ℚ) ^ (-d.scale) = 10 ^ n * 10 ^ (-(d.scale + n)) := by
    rw [← zpow_natCast, ← zpow_add₀ (by norm_num)]
    congr 1
    omega
  rw [toRat, digitsAt, shift, units]
  push_cast
  rw [pow10_cast, mul_assoc]

section Aligned

variable (a b : Decimal)

/-- Both numbers as multiples of the finer of their units. -/
theorem toRat_aligned :
    a.toRat = a.digitsAt (max a.scale b.scale) * 10 ^ (-max a.scale b.scale) ∧
      b.toRat = b.digitsAt (max a.scale b.scale) * 10 ^ (-max a.scale b.scale) :=
  ⟨toRat_eq_at (Int.le_max_left ..), toRat_eq_at (Int.le_max_right ..)⟩

theorem toRat_add : (a.add b).toRat = a.toRat + b.toRat := by
  obtain ⟨ha, hb⟩ := toRat_aligned a b
  rw [ha, hb, add, toRat]
  push_cast
  ring

theorem toRat_sub : (a.sub b).toRat = a.toRat - b.toRat := by
  obtain ⟨ha, hb⟩ := toRat_aligned a b
  rw [ha, hb, sub, toRat]
  push_cast
  ring

variable {a b} in
theorem toRat_mul (fits : Fits (a.scale + b.scale)) : (a.mul b).toRat = a.toRat * b.toRat := by
  have units : (10 : ℚ) ^ (-(a.scale + b.scale)) = 10 ^ (-a.scale) * 10 ^ (-b.scale) := by
    rw [neg_add, zpow_add₀ (by norm_num)]
  simp only [mul, fits.wrapScale, toRat, units]
  push_cast
  ring

theorem toRat_neg : a.neg.toRat = -a.toRat := by
  simp [neg, toRat]

theorem compare_eq_cmp : a.compare b = cmp a.toRat b.toRat := by
  obtain ⟨ha, hb⟩ := toRat_aligned a b
  rw [ha, hb, cmp_mul_pos_right (unit_pos _), Int.cast_strictMono.cmp_map_eq, cmp_eq_compare]
  rfl

theorem equal_iff_toRat : a.equal b = true ↔ a.toRat = b.toRat := by
  rw [equal, beq_iff_eq, compare_eq_cmp, cmp_eq_eq_iff]

theorem toRat_eq_zero_iff : a.toRat = 0 ↔ a.digits = 0 := by
  have unit := (unit_pos (-a.scale)).ne'
  rw [toRat, mul_eq_zero_iff_right unit, Int.cast_eq_zero]

end Aligned

end Decimal

/-! ### Values -/

namespace Value

/-- The number that a value stands for, if it is a number. -/
def number? : Value → Option ℚ
  | int n => some n
  | dec d => some d.toRat
  | _ => Option.none

theorem int_or_dec_of_number? {v : Value} {x : ℚ} (h : v.number? = some x) :
    (∃ n : Int, v = int n ∧ x = n) ∨ ∃ d, v = dec d ∧ x = d.toRat := by
  cases v with
  | int n => exact .inl ⟨n, rfl, (Option.some.inj h).symm⟩
  | dec d => exact .inr ⟨d, rfl, (Option.some.inj h).symm⟩
  | _ => cases h

/-- The scale of a number, which is zero for integers. -/
def scale : Value → Int
  | dec d => d.scale
  | _ => 0

/-- One of the operands is a decimal, so that the other becomes one. -/
def Promotes (a b : Value) : Prop :=
  a.type = .dec ∨ b.type = .dec

/-- An operation succeeds with the number `x`, and with a decimal exactly if it `promotes`. -/
def Computes (result : Except OperationError Value) (x : ℚ) (promotes : Prop) : Prop :=
  ∃ v, result = .ok v ∧ v.number? = some x ∧ (v.type = .dec ↔ promotes)

/-- Two numbers on common ground. -/
inductive Paired (x y : ℚ) (promotes : Prop) : Option Numbers → Prop where
  | ints {m n : Int} (left : x = m) (right : y = n) (other : ¬ promotes) :
    Paired x y promotes (some (.ints m n))
  | decs {c d : Decimal} (left : x = c.toRat) (right : y = d.toRat) (holds : promotes) :
    Paired x y promotes (some (.decs c d))

/-- On common ground, both keep their scales. -/
theorem scale_of_numbers? {a b : Value} {c d : Decimal}
    (h : numbers? a b = some (.decs c d)) : c.scale = a.scale ∧ d.scale = b.scale := by
  unfold numbers? at h
  split at h <;> cases h <;> exact ⟨rfl, rfl⟩

section Arithmetic

variable {a b : Value} {x y : ℚ} (ha : a.number? = some x) (hb : b.number? = some y)

include ha hb

theorem paired_numbers? : Paired x y (Promotes a b) (numbers? a b) := by
  obtain ⟨m, rfl, hx⟩ | ⟨c, rfl, hx⟩ := int_or_dec_of_number? ha
  · obtain ⟨n, rfl, hy⟩ | ⟨d, rfl, hy⟩ := int_or_dec_of_number? hb
    · have other : ¬ Promotes (int m) (int n) := by
        rintro (same | same) <;> cases same
      exact .ints hx hy other
    · rw [← Decimal.toRat_ofInt] at hx
      exact .decs hx hy (.inr rfl)
  · obtain ⟨n, rfl, hy⟩ | ⟨d, rfl, hy⟩ := int_or_dec_of_number? hb
    · rw [← Decimal.toRat_ofInt] at hy
      exact .decs hx hy (.inl rfl)
    · exact .decs hx hy (.inl rfl)

/-- An operation that is done alike on integers and on decimals. -/
theorem computes_of_numbers {result : Except OperationError Value} {f : ℚ → ℚ → ℚ}
    {onInts : Int → Int → Int} {onDecs : Decimal → Decimal → Decimal}
    (ints : ∀ m n, numbers? a b = some (.ints m n) → result = .ok (int (onInts m n)))
    (decs : ∀ c d, numbers? a b = some (.decs c d) → result = .ok (dec (onDecs c d)))
    (intsExact : ∀ m n, (onInts m n : ℚ) = f m n)
    (decsExact : ∀ c d, numbers? a b = some (.decs c d) →
      (onDecs c d).toRat = f c.toRat d.toRat) :
    Computes result (f x y) (Promotes a b) := by
  have paired := paired_numbers? ha hb
  generalize numbers? a b = numbers at ints decs decsExact paired
  cases paired with
  | @ints m n left right other =>
    refine ⟨_, ints m n rfl, ?_, ?_⟩
    · rw [left, right, ← intsExact, number?]
    · exact iff_of_false (fun same => by cases same) other
  | @decs c d left right holds =>
    refine ⟨_, decs c d rfl, ?_, ?_⟩
    · rw [left, right, ← decsExact c d rfl, number?]
    · exact iff_of_true rfl holds

theorem add_computes : Computes (a.add b) (x + y) (Promotes a b) := by
  apply computes_of_numbers ha hb _ _ Int.cast_add fun c d _ => Decimal.toRat_add c d
  · intro m n eq
    simp only [add, eq]
  · intro c d eq
    simp only [add, eq]

theorem subtract_computes : Computes (a.subtract b) (x - y) (Promotes a b) := by
  apply computes_of_numbers ha hb _ _ Int.cast_sub fun c d _ => Decimal.toRat_sub c d
  · intro m n eq
    simp only [subtract, eq]
  · intro c d eq
    simp only [subtract, eq]

theorem multiply_computes (fits : Decimal.Fits (a.scale + b.scale)) :
    Computes (a.multiply b) (x * y) (Promotes a b) := by
  apply computes_of_numbers ha hb _ _ Int.cast_mul
  · intro c d eq
    obtain ⟨left, right⟩ := scale_of_numbers? eq
    rw [← left, ← right] at fits
    exact Decimal.toRat_mul fits
  · intro m n eq
    simp only [multiply, eq]
  · intro c d eq
    simp only [multiply, eq]

/-- Values are compared as the numbers that they stand for. -/
theorem compare_eq_cmp (op : BinaryOp) : a.compare op b = .ok (cmp x y) := by
  have paired := paired_numbers? ha hb
  unfold compare
  generalize numbers? a b = numbers at paired
  cases paired with
  | ints left right other =>
    rw [left, right, Int.cast_strictMono.cmp_map_eq, cmp_eq_compare]
  | decs left right holds =>
    rw [left, right, ← Decimal.compare_eq_cmp]

/-- Numbers of one type are equal as values exactly if they are equal as numbers. -/
theorem equal_iff_number? (types : a.type = b.type) : a.equal b = true ↔ x = y := by
  rw [equal_eq_same]
  obtain ⟨m, rfl, rfl⟩ | ⟨c, rfl, rfl⟩ := int_or_dec_of_number? ha
  · obtain ⟨n, rfl, rfl⟩ | ⟨d, rfl, rfl⟩ := int_or_dec_of_number? hb
    · rw [same, beq_iff_eq, Int.cast_inj]
    · cases types
  · obtain ⟨n, rfl, rfl⟩ | ⟨d, rfl, rfl⟩ := int_or_dec_of_number? hb
    · cases types
    · rw [same, Decimal.equal_iff_toRat]

end Arithmetic

theorem negate_computes {a : Value} {x : ℚ} (ha : a.number? = some x) :
    Computes a.negate (-x) (a.type = .dec) := by
  obtain ⟨n, rfl, rfl⟩ | ⟨d, rfl, rfl⟩ := int_or_dec_of_number? ha
  · refine ⟨int (-n), rfl, ?_, Iff.rfl⟩
    rw [number?, Int.cast_neg]
  · refine ⟨dec d.neg, rfl, ?_, Iff.rfl⟩
    rw [number?, Decimal.toRat_neg]

/-- Division of integers leaves a remainder between zero and the divisor. -/
theorem divide_modulo_int (i : Int) {j : Int} (nonzero : j ≠ 0) :
    ∃ q r, (int i).divide (int j) = .ok (int q) ∧ (int i).modulo (int j) = .ok (int r) ∧
      i = q * j + r ∧ 0 ≤ r ∧ r < |j| := by
  refine ⟨i / j, i % j, ?_, ?_, ?_, Int.emod_nonneg i nonzero, Int.emod_lt_abs i nonzero⟩
  · rw [divide, numbers?]
    exact if_neg nonzero
  · rw [modulo, if_neg nonzero]
  · rw [mul_comm]
    exact (Int.mul_ediv_add_emod i j).symm

end Value

/-! ### Comparisons -/

namespace BinaryOp

/-- The operators that tell the order of two numbers. -/
def orderings : List BinaryOp :=
  [greater, less, greaterEqual, lessEqual]

/-- What an ordering says of two numbers. -/
def Relates (op : BinaryOp) (x y : ℚ) : Prop :=
  match op with
  | greater => y < x
  | less => x < y
  | greaterEqual => y ≤ x
  | lessEqual => x ≤ y
  | _ => False

/-- The ordering that holds exactly where another does not. -/
def opposite : BinaryOp → BinaryOp
  | greater => lessEqual
  | less => greaterEqual
  | greaterEqual => less
  | lessEqual => greater
  | op => op

variable {op : BinaryOp} (ordering : op ∈ orderings)

include ordering

theorem holds_cmp_iff (x y : ℚ) : op.holds (cmp x y) = true ↔ op.Relates x y := by
  simp only [orderings, List.mem_cons, List.not_mem_nil, or_false] at ordering
  rcases ordering with rfl | rfl | rfl | rfl
  · rw [holds, Relates, beq_iff_eq, cmp_eq_gt_iff]
  · rw [holds, Relates, beq_iff_eq, cmp_eq_lt_iff]
  · rw [holds, Relates, bne_iff_ne, ne_eq, cmp_eq_lt_iff, not_lt]
  · show (cmp x y != .gt) = true ↔ x ≤ y
    rw [bne_iff_ne, ne_eq, cmp_eq_gt_iff, not_lt]

theorem holds_opposite (order : Ordering) : op.opposite.holds order = !op.holds order := by
  simp only [orderings, List.mem_cons, List.not_mem_nil, or_false] at ordering
  rcases ordering with rfl | rfl | rfl | rfl <;> cases order <;> rfl

theorem opposite_mem : op.opposite ∈ orderings := by
  simp only [orderings, List.mem_cons, List.not_mem_nil, or_false] at ordering
  rcases ordering with rfl | rfl | rfl | rfl <;> decide

/-- Evaluating an ordering of numbers reports nothing. -/
theorem run_ordering {σ : Type} {a b : Value} {x y : ℚ} (ha : a.number? = some x)
    (hb : b.number? = some y) (span : Span) (m : Machine σ) :
    (op.eval a b span).run m = .ok (.bool (op.holds (cmp x y))) m := by
  have eval : (op.eval a b span : EvalM σ Value) =
      EvalM.settleTest ((a.compare op b).map op.holds) span := by
    simp only [orderings, List.mem_cons, List.not_mem_nil, or_false] at ordering
    rcases ordering with rfl | rfl | rfl | rfl <;> rfl
  rw [eval, Value.compare_eq_cmp ha hb]
  rfl

end BinaryOp

/-- Numbers are added, subtracted, multiplied and negated as the rational numbers that they stand
for, whatever their form, and the result is a decimal exactly if an operand is one; of a product,
the scale has to fit. They are compared as rational numbers: an ordering holds where it holds of
these, its negation is the opposite ordering, and among numbers of one type the equal ones are those
that equality finds. Integers are divided with a remainder that is not negative. -/
theorem numbers_compute_exactly {a b : Value} {x y : ℚ} (ha : a.number? = some x)
    (hb : b.number? = some y) :
    Value.Computes (a.add b) (x + y) (a.type = .dec ∨ b.type = .dec) ∧
    Value.Computes (a.subtract b) (x - y) (a.type = .dec ∨ b.type = .dec) ∧
    (Decimal.Fits (a.scale + b.scale) →
      Value.Computes (a.multiply b) (x * y) (a.type = .dec ∨ b.type = .dec)) ∧
    Value.Computes a.negate (-x) (a.type = .dec) ∧
    (∀ op, a.compare op b = .ok (cmp x y)) ∧
    (∀ op ∈ BinaryOp.orderings, ∀ (σ : Type) (m : Machine σ) (span outer : Span),
      (∃ answer, (op.eval a b span).run m = .ok (.bool answer) m ∧
        (answer = true ↔ op.Relates x y)) ∧
      (op.eval a b span >>= fun v => UnaryOp.not.eval v outer).run m =
        (op.opposite.eval a b span).run m) ∧
    (a.type = b.type → ∀ op, a.compare op b = .ok .eq ↔ a.equal b = true) ∧
    ∀ i j : Int, a = .int i → b = .int j → j ≠ 0 →
      ∃ q r, a.divide b = .ok (.int q) ∧ a.modulo b = .ok (.int r) ∧
        i = q * j + r ∧ 0 ≤ r ∧ r < |j| := by
  refine ⟨Value.add_computes ha hb, Value.subtract_computes ha hb, Value.multiply_computes ha hb,
    Value.negate_computes ha, Value.compare_eq_cmp ha hb, ?_, ?_, ?_⟩
  · intro op ordering σ m span outer
    have answer := BinaryOp.run_ordering ordering ha hb span m
    constructor
    · exact ⟨_, answer, BinaryOp.holds_cmp_iff ordering x y⟩
    · have opposite := BinaryOp.run_ordering (BinaryOp.opposite_mem ordering) ha hb span m
      rw [EStateM.run_bind, answer, opposite, BinaryOp.holds_opposite ordering]
      rfl
  · intro types op
    rw [Value.compare_eq_cmp ha hb, Except.ok.injEq, cmp_eq_eq_iff,
      Value.equal_iff_number? ha hb types]
  · rintro i j rfl rfl nonzero
    exact Value.divide_modulo_int i nonzero

/-- Three hundred with two zeros kept back by a negative scale, and with two zeros too many. -/
theorem rescaled_numbers_compute_exactly :
    (Value.dec ⟨3, -2⟩).number? = some 300 ∧ (Value.dec ⟨30000, 2⟩).number? = some 300 ∧
    (∃ v, (Value.dec ⟨3, -2⟩).multiply (.dec ⟨30000, 2⟩) = .ok v ∧ v.number? = some (300 * 300)) ∧
    (Value.dec ⟨3, -2⟩).compare .lessEqual (.dec ⟨30000, 2⟩) = .ok .eq ∧
    (Value.dec ⟨3, -2⟩).equal (.dec ⟨30000, 2⟩) = true ∧
    ∃ q r, (Value.int (-7)).divide (.int (-2)) = .ok (.int q) ∧
      (Value.int (-7)).modulo (.int (-2)) = .ok (.int r) ∧
      -7 = q * -2 + r ∧ 0 ≤ r ∧ r < |(-2 : Int)| := by
  have left : (Value.dec ⟨3, -2⟩).number? = some 300 := by
    norm_num [Value.number?, Decimal.toRat]
  have right : (Value.dec ⟨30000, 2⟩).number? = some 300 := by
    norm_num [Value.number?, Decimal.toRat]
  obtain ⟨-, -, product, -, order, -, equal, -⟩ := numbers_compute_exactly left right
  obtain ⟨v, multiplied, number, -⟩ := product (by decide)
  have same : (Value.dec ⟨3, -2⟩).compare .lessEqual (.dec ⟨30000, 2⟩) = .ok .eq := by
    rw [order, cmp_self_eq_eq]
  have seven : (Value.int (-7)).number? = some ((-7 : Int) : ℚ) := rfl
  have two : (Value.int (-2)).number? = some ((-2 : Int) : ℚ) := rfl
  obtain ⟨-, -, -, -, -, -, -, division⟩ := numbers_compute_exactly seven two
  exact ⟨left, right, ⟨v, multiplied, number⟩, same, (equal rfl _).1 same,
    division _ _ rfl rfl (by decide)⟩

section Tiny

/-- The number one at the largest scale. -/
def tiny : Decimal :=
  ⟨1, Int64.maxValue.toInt⟩

/-- Twice the largest scale wraps: the square of the tiny number comes out as a hundred. -/
theorem square_of_tiny_is_not_exact :
    (Value.dec tiny).multiply (.dec tiny) = .ok (.dec ⟨1, -2⟩) ∧
    (Value.dec ⟨1, -2⟩).number? = some 100 ∧
    (Value.dec tiny).number? = some tiny.toRat ∧ tiny.toRat * tiny.toRat < 1 ∧
    ¬ Value.Computes ((Value.dec tiny).multiply (.dec tiny)) (tiny.toRat * tiny.toRat)
      ((Value.dec tiny).type = .dec ∨ (Value.dec tiny).type = .dec) := by
  have square : tiny.mul tiny = ⟨1, -2⟩ := by
    decide +kernel
  have product : (Value.dec tiny).multiply (.dec tiny) = .ok (.dec ⟨1, -2⟩) := by
    rw [Value.multiply, Value.numbers?]
    dsimp only
    rw [square]
  have hundred : (Value.dec ⟨1, -2⟩).number? = some 100 := by
    norm_num [Value.number?, Decimal.toRat]
  have small : tiny.toRat < 1 := by
    have unit : (10 : ℚ) ^ (-tiny.scale) < 1 := zpow_lt_one_of_neg₀ (by norm_num) (by decide)
    rwa [Decimal.toRat, tiny, Int.cast_one, one_mul]
  have positive : 0 ≤ tiny.toRat := by
    rw [Decimal.toRat, tiny, Int.cast_one, one_mul]
    exact (Decimal.unit_pos _).le
  have below : tiny.toRat * tiny.toRat < 1 :=
    mul_lt_one_of_nonneg_of_lt_one_left positive small small.le
  refine ⟨product, hundred, rfl, below, ?_⟩
  rintro ⟨v, multiplied, number, -⟩
  rw [product] at multiplied
  cases multiplied
  rw [hundred, Option.some.injEq] at number
  rw [← number] at below
  norm_num at below

end Tiny

end ExprLang
