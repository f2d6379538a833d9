import ExprLang.Proofs.Numbers
import Mathlib.Data.Int.Log
import Mathlib.Data.Rat.Floor
import Mathlib.Data.Sign.Basic

set_option autoImplicit false

/-!
How accurate division is. A quotient is rounded twice, far down first and then in its sixteenth
digit. The first rounding lands on a grid so fine that all powers of ten that matter lie on it;
hence it moves the number over none of them, and the second rounding starts from the digits of the
exact quotient but for a carry.
-/

namespace ExprLang

namespace Decimal

/-! ### Grids -/

/-- The number is an integer multiple of a power of ten. -/
def OnGrid (z : Int) (x : ℚ) : Prop :=
  ∃ k : Int, x = k * 10 ^ z

namespace OnGrid

variable {z w : Int} {x y : ℚ}

theorem add (hx : OnGrid z x) (hy : OnGrid z y) : OnGrid z (x + y) := by
  obtain ⟨j, rfl⟩ := hx
  obtain ⟨k, rfl⟩ := hy
  exact ⟨j + k, by push_cast; ring⟩

theorem neg (hx : OnGrid z x) : OnGrid z (-x) := by
  obtain ⟨j, rfl⟩ := hx
  exact ⟨-j, by push_cast; ring⟩

theorem abs (hx : OnGrid z x) : OnGrid z |x| := by
  rcases abs_choice x with same | turned
  · rwa [same]
  · rw [turned]
    exact hx.neg

/-- A coarse grid lies on every finer one. -/
theorem finer (hx : OnGrid z x) (le : w ≤ z) : OnGrid w x := by
  obtain ⟨j, rfl⟩ := hx
  obtain ⟨n, rfl⟩ := Int.le.dest le
  refine ⟨j * 10 ^ n, ?_⟩
  rw [zpow_add₀ (by norm_num), zpow_natCast]
  push_cast
  ring

/-- Numbers on a grid that differ are at least one unit apart. -/
theorem add_unit_le (hx : OnGrid z x) (hy : OnGrid z y) (lt : x < y) : x + 10 ^ z ≤ y := by
  obtain ⟨j, rfl⟩ := hx
  obtain ⟨k, rfl⟩ := hy
  have unit := unit_pos z
  have less : j < k := by
    have := lt_of_mul_lt_mul_right lt unit.le
    exact_mod_cast this
  have step : ((j : ℚ) + 1) ≤ k := by exact_mod_cast less
  calc (j : ℚ) * 10 ^ z + 10 ^ z = (j + 1) * 10 ^ z := by ring
    _ ≤ k * 10 ^ z := mul_le_mul_of_nonneg_right step unit.le

theorem eq_of_near (hx : OnGrid z x) (hy : OnGrid z y) (near : |x - y| < 10 ^ z) : x = y := by
  obtain ⟨below, above⟩ := abs_lt.1 near
  rcases lt_trichotomy x y with lt | same | gt
  · have := hx.add_unit_le hy lt
    linarith
  · exact same
  · have := hy.add_unit_le hx gt
    linarith

end OnGrid

theorem onGrid_unit {z e : Int} (le : z ≤ e) : OnGrid z (10 ^ e) :=
  OnGrid.finer ⟨1, by simp⟩ le

theorem onGrid_toRat {d : Decimal} {z : Int} (le : z ≤ -d.scale) : OnGrid z d.toRat := by
  have fits : d.scale ≤ -z := by omega
  refine ⟨d.digitsAt (-z), ?_⟩
  rw [toRat_eq_at fits, neg_neg]

/-! ### Leading digits -/

/-- The place of the first digit of a number. -/
def leading (x : ℚ) : Int :=
  Int.log 10 |x|

theorem leading_le {x : ℚ} (nonzero : x ≠ 0) : 10 ^ leading x ≤ |x| :=
  Int.zpow_log_le_self (by decide) (abs_pos.2 nonzero)

theorem lt_leading (x : ℚ) : |x| < 10 ^ (leading x + 1) :=
  Int.lt_zpow_succ_log_self (by decide) |x|

theorem le_leading {x : ℚ} {e : Int} (le : 10 ^ e ≤ |x|) : e ≤ leading x := by
  have positive : 0 < |x| := (unit_pos e).trans_le le
  apply (Int.zpow_le_iff_le_log (by decide) positive).1
  exact_mod_cast le

theorem leading_eq {x : ℚ} {e : Int} (le : 10 ^ e ≤ |x|) (lt : |x| < 10 ^ (e + 1)) :
    leading x = e := by
  have positive : 0 < |x| := (unit_pos e).trans_le le
  have below : leading x < e + 1 := by
    apply (Int.lt_zpow_iff_log_lt (by decide) positive).1
    exact_mod_cast lt
  have above := le_leading le
  omega

end Decimal

theorem pow10_eq (n : Nat) : pow10 n = 10 ^ n := rfl

theorem digitCount_eq_log (n : Nat) : digitCount n = Nat.log 10 n + 1 := by
  induction n using digitCount.induct with
  | case1 n small => rw [digitCount, if_pos small, Nat.log_of_lt small]
  | case2 n large ih =>
    rw [digitCount, if_neg large, ih, Nat.log_of_one_lt_of_le (by decide) (Nat.le_of_not_lt large)]

theorem digitCount_pos (n : Nat) : 0 < digitCount n := by
  rw [digitCount_eq_log]
  omega

theorem pow_le_of_digitCount {n : Nat} (nonzero : n ≠ 0) : 10 ^ (digitCount n - 1) ≤ n := by
  rw [digitCount_eq_log, Nat.add_sub_cancel]
  exact Nat.pow_log_le_self 10 nonzero

theorem lt_pow_digitCount (n : Nat) : n < 10 ^ digitCount n := by
  rw [digitCount_eq_log]
  exact Nat.lt_pow_succ_log_self (by decide) n

namespace Decimal

/-- The first digit of a decimal is as many places above its last as it has further digits. -/
theorem leading_toRat {d : Decimal} (nonzero : d.digits ≠ 0) :
    leading d.toRat = digitCount d.digits.natAbs - 1 - d.scale := by
  have unit := unit_pos (-d.scale)
  have size : |d.toRat| = d.digits.natAbs * 10 ^ (-d.scale) := by
    rw [toRat, abs_mul, abs_of_pos unit, ← Int.cast_abs, Int.abs_eq_natAbs, Int.cast_natCast]
  have count := digitCount_pos d.digits.natAbs
  apply leading_eq
  · have place : (digitCount d.digits.natAbs : Int) - 1 - d.scale =
        (digitCount d.digits.natAbs - 1 : Nat) + -d.scale := by omega
    rw [size, place, zpow_add₀ (by norm_num), zpow_natCast]
    apply mul_le_mul_of_nonneg_right _ unit.le
    exact_mod_cast pow_le_of_digitCount (Int.natAbs_ne_zero.2 nonzero)
  · have place : (digitCount d.digits.natAbs : Int) - 1 - d.scale + 1 =
        digitCount d.digits.natAbs + -d.scale := by omega
    rw [size, place, zpow_add₀ (by norm_num), zpow_natCast]
    apply mul_lt_mul_of_pos_right _ unit
    exact_mod_cast lt_pow_digitCount d.digits.natAbs

/-! ### The cut -/

/-- `q` is `y` rounded at the place `z`: half up if positive, and towards zero if negative. -/
structure CutsTo (z : Int) (y q : ℚ) : Prop where
  grid : OnGrid z q
  positive : 0 < y → |q - y| ≤ 10 ^ z / 2
  negative : y < 0 → y ≤ q ∧ q < y + 10 ^ z

theorem cutsTo_self {z : Int} {y : ℚ} (grid : OnGrid z y) : CutsTo z y y := by
  have unit := unit_pos z
  refine ⟨grid, ?_, ?_⟩
  · intro _
    rw [sub_self, abs_zero]
    linarith
  · intro _
    constructor <;> linarith

namespace CutsTo

variable {z : Int} {y q : ℚ}

theorem near (h : CutsTo z y q) (nonzero : y ≠ 0) : |q - y| < 10 ^ z := by
  have unit := unit_pos z
  rcases lt_or_gt_of_ne nonzero with negative | positive
  · obtain ⟨below, above⟩ := h.negative negative
    rw [abs_lt]
    constructor <;> linarith
  · have := h.positive positive
    linarith

theorem eq_of_onGrid (h : CutsTo z y q) (nonzero : y ≠ 0) (grid : OnGrid z y) : q = y :=
  h.grid.eq_of_near grid (h.near nonzero)

end CutsTo

/-- Dropping the digits below a unit, with one added for a large rest. -/
theorem cut_int {digits unit kept : Int} (positive : 0 < unit)
    (eq : kept = digits.tdiv unit + if unit ≤ 2 * digits.tmod unit then 1 else 0) :
    (0 < digits → -unit ≤ 2 * (kept * unit - digits) ∧ 2 * (kept * unit - digits) ≤ unit) ∧
      (digits < 0 → digits ≤ kept * unit ∧ kept * unit < digits + unit) := by
  have whole := Int.mul_tdiv_add_tmod digits unit
  have split : kept * unit =
      unit * digits.tdiv unit + if unit ≤ 2 * digits.tmod unit then unit else 0 := by
    rw [eq]
    split <;> ring
  rw [split]
  generalize unit * digits.tdiv unit = floor at whole
  constructor
  · intro above
    have low := Int.tmod_nonneg unit above.le
    have high := Int.tmod_lt_of_pos digits positive
    split <;> omega
  · intro below
    have low := Int.lt_tmod_of_pos digits positive
    have high : digits.tmod unit ≤ 0 := by
      have turned := Int.tmod_nonneg unit (a := -digits) (by omega)
      rw [Int.neg_tmod] at turned
      omega
    rw [if_neg (by omega)]
    omega

/-- The last `n` digits of a decimal are dropped. -/
theorem drop_cuts (d : Decimal) (n : Nat) {kept : Int}
    (eq : kept = d.digits.tdiv (pow10 n) +
      if (pow10 n : Int) ≤ 2 * d.digits.tmod (pow10 n) then 1 else 0) :
    CutsTo (n - d.scale) d.toRat (toRat ⟨kept, d.scale - n⟩) := by
  have small := unit_pos (-d.scale)
  have place : (10 : ℚ) ^ (n - d.scale) = ((pow10 n : Int) : ℚ) * 10 ^ (-d.scale) := by
    rw [sub_eq_add_neg, zpow_add₀ (by norm_num), zpow_natCast, Int.cast_natCast, pow10_cast]
  have positive : 0 < (pow10 n : Int) := Int.natCast_pos.2 (Nat.pow_pos (by decide))
  have value : toRat ⟨kept, d.scale - n⟩ = kept * 10 ^ (n - d.scale) := by
    rw [toRat, neg_sub]
  obtain ⟨above, below⟩ := cut_int positive eq
  refine ⟨⟨kept, value⟩, ?_, ?_⟩
  · rw [value, place, toRat]
    generalize (10 : ℚ) ^ (-d.scale) = g at small
    generalize (pow10 n : Int) = unit at above
    intro sign
    have digits : 0 < d.digits := by exact_mod_cast pos_of_mul_pos_left sign small.le
    obtain ⟨low, high⟩ := above digits
    have low : -(unit : ℚ) ≤ 2 * (kept * unit - d.digits) := by exact_mod_cast low
    have high : 2 * (kept * unit - d.digits) ≤ (unit : ℚ) := by exact_mod_cast high
    have error : |(kept * unit - d.digits : ℚ)| ≤ unit / 2 := abs_le.2 ⟨by linarith, by linarith⟩
    calc |kept * (unit * g) - d.digits * g| = |(kept * unit - d.digits : ℚ) * g| := by ring_nf
      _ = |(kept * unit - d.digits : ℚ)| * g := by rw [abs_mul, abs_of_pos small]
      _ ≤ unit / 2 * g := mul_le_mul_of_nonneg_right error small.le
      _ = unit * g / 2 := by ring
  · rw [value, place, toRat]
    generalize (10 : ℚ) ^ (-d.scale) = g at small
    generalize (pow10 n : Int) = unit at below
    intro sign
    have digits : d.digits < 0 := by
      have := neg_of_mul_neg_left sign small.le
      exact_mod_cast this
    obtain ⟨low, high⟩ := below digits
    have low : (d.digits : ℚ) ≤ kept * unit := by exact_mod_cast low
    have high : (kept * unit : ℚ) < d.digits + unit := by exact_mod_cast high
    rw [← mul_assoc, ← add_mul]
    exact ⟨mul_le_mul_of_nonneg_right low small.le, mul_lt_mul_of_pos_right high small⟩

/-- Zeros at the end change the form of a decimal only. -/
theorem toRat_extend (d : Decimal) (n : Nat) :
    toRat ⟨d.digits * pow10 n, d.scale + n⟩ = d.toRat := by
  have le : d.scale ≤ d.scale + n := by omega
  have more : (d.scale + n - d.scale).toNat = n := by omega
  rw [toRat_eq_at le, digitsAt, more, toRat]

theorem withDigits_cuts {d : Decimal} (nonzero : d.digits ≠ 0) (count : Nat) :
    CutsTo (leading d.toRat + 1 - count) d.toRat (d.withDigits count).toRat := by
  rw [leading_toRat nonzero, withDigits]
  split
  next more =>
    have place : (digitCount d.digits.natAbs : Int) - 1 - d.scale + 1 - count =
        (digitCount d.digits.natAbs - count : Nat) - d.scale := by omega
    rw [place]
    exact drop_cuts d _ rfl
  next enough =>
    have place : (digitCount d.digits.natAbs : Int) - 1 - d.scale + 1 - count =
        -(d.scale + (count - digitCount d.digits.natAbs : Nat)) := by omega
    rw [place, toRat_extend]
    apply cutsTo_self
    exact onGrid_toRat (by omega)

/-! ### Long division -/

/-- The dividend is lifted to the divisor, at least. -/
theorem le_mul_liftTo {num : Nat} (positive : 0 < num) (den : Nat) :
    den ≤ num * pow10 (liftTo num den) := by
  rw [liftTo]
  by_cases short : num * pow10 (digitCount den - digitCount num) < den
  · have low := pow_le_of_digitCount positive.ne'
    have high := lt_pow_digitCount den
    have count := digitCount_pos num
    rw [if_pos short, pow10_eq]
    calc den ≤ 10 ^ digitCount den := high.le
      _ ≤ 10 ^ (digitCount num - 1 + (digitCount den - digitCount num + 1)) :=
        Nat.pow_le_pow_right (by decide) (by omega)
      _ = 10 ^ (digitCount num - 1) * 10 ^ (digitCount den - digitCount num + 1) :=
        Nat.pow_add ..
      _ ≤ num * 10 ^ (digitCount den - digitCount num + 1) := Nat.mul_le_mul_right _ low
  · rw [if_neg short]
    exact Nat.le_of_not_lt short

/-- Lifted further, the dividend yields a quotient with digits enough. -/
theorem le_mul_lifted {num den : Nat} (hnum : 0 < num) (hden : 0 < den) (precision : Nat) :
    10 ^ (precision - 1) * den ≤ num * pow10 (liftTo num den +
      (precision - digitCount (num * pow10 (liftTo num den) / den))) := by
  have lifted := le_mul_liftTo hnum den
  generalize liftTo num den = lift at lifted
  have first : num * pow10 lift / den ≠ 0 := (Nat.div_pos lifted hden).ne'
  have low := (Nat.le_div_iff_mul_le hden).1 (pow_le_of_digitCount first)
  have count := digitCount_pos (num * pow10 lift / den)
  generalize digitCount (num * pow10 lift / den) = present at low count
  rw [pow10_eq] at low ⊢
  calc 10 ^ (precision - 1) * den ≤ 10 ^ (present - 1 + (precision - present)) * den :=
      Nat.mul_le_mul_right _ (Nat.pow_le_pow_right (by decide) (by omega))
    _ = 10 ^ (present - 1) * den * 10 ^ (precision - present) := by rw [Nat.pow_add]; ring
    _ ≤ num * 10 ^ lift * 10 ^ (precision - present) := Nat.mul_le_mul_right _ low
    _ = num * 10 ^ (lift + (precision - present)) := by rw [Nat.pow_add]; ring

/-- A digit of five or more goes up: what is left over is half the divisor at least. -/
theorem round_div {num den digits : Nat} (positive : 0 < den)
    (eq : digits = num / den + if 5 ≤ num % den * 10 / den then 1 else 0) :
    2 * (digits * den) ≤ 2 * num + den ∧ 2 * num ≤ 2 * (digits * den) + den := by
  have whole := Nat.div_add_mod num den
  have rest := Nat.mod_lt num positive
  have half : 5 ≤ num % den * 10 / den ↔ 5 * den ≤ num % den * 10 :=
    Nat.le_div_iff_mul_le positive
  have split : digits * den = den * (num / den) + if 5 ≤ num % den * 10 / den then den else 0 := by
    rw [eq]
    split <;> ring
  rw [split]
  generalize den * (num / den) = floor at whole
  split <;> omega

/-- A quotient of integers, with digits enough, is rounded to the nearest. -/
theorem longDivision_near {precision num den digits places : Nat} (hnum : 0 < num) (hden : 0 < den)
    (eq : longDivision precision num den = (digits, places)) :
    10 ^ (precision - 1) * den ≤ num * pow10 places ∧
      2 * (digits * den) ≤ 2 * (num * pow10 places) + den ∧
      2 * (num * pow10 places) ≤ 2 * (digits * den) + den := by
  obtain ⟨rfl, rfl⟩ := Prod.mk.inj eq
  exact ⟨le_mul_lifted hnum hden precision, round_div hden rfl⟩

/-! ### The quotient -/

/-- `y` is `x` rounded to the nearest number on a grid, so fine that `x` has a hundred digits. -/
def Refines (x y : ℚ) : Prop :=
  ∃ z, z ≤ leading x - 99 ∧ OnGrid z y ∧ |y - x| ≤ 10 ^ z / 2

theorem refines_self (d : Decimal) : Refines d.toRat d.toRat := by
  refine ⟨min (-d.scale) (leading d.toRat - 99), Int.min_le_right .., ?_, ?_⟩
  · exact onGrid_toRat (Int.min_le_left ..)
  · rw [sub_self, abs_zero]
    exact (half_pos (unit_pos _)).le

theorem cast_eq_sign_mul {a : Int} {n : Nat} (size : a.natAbs = n) : (a : ℚ) = a.sign * n := by
  have whole := Int.sign_mul_natAbs a
  rw [size] at whole
  exact_mod_cast whole.symm

/-- The sign of a quotient, which is found apart from its size. -/
theorem sign_inv {a b : Int} (ha : a ≠ 0) (hb : b ≠ 0) :
    |((a.sign * b.sign : Int) : ℚ)| = 1 ∧ (a.sign : ℚ) / b.sign = (a.sign * b.sign : Int) := by
  rcases lt_or_gt_of_ne ha with left | left <;> rcases lt_or_gt_of_ne hb with right | right <;>
    simp [Int.sign_eq_neg_one_of_neg, Int.sign_eq_one_of_pos, left, right]

theorem near_div {num den digits : Nat} (positive : 0 < den)
    (above : 2 * (digits * den) ≤ 2 * num + den) (below : 2 * num ≤ 2 * (digits * den) + den) :
    |(digits : ℚ) - num / den| ≤ 1 / 2 := by
  have positive : (0 : ℚ) < den := by exact_mod_cast positive
  have above : (2 * (digits * den) : ℚ) ≤ 2 * num + den := by exact_mod_cast above
  have below : (2 * num : ℚ) ≤ 2 * (digits * den) + den := by exact_mod_cast below
  have low : (num : ℚ) / den ≤ digits + 1 / 2 := by
    rw [div_le_iff₀ positive]
    linarith
  have high : (digits : ℚ) - 1 / 2 ≤ num / den := by
    rw [le_div_iff₀ positive]
    linarith
  rw [abs_le]
  constructor <;> linarith

/-- Rounding a multiple of a unit to the nearest integer multiple. -/
theorem refines_of_near {s a b : ℚ} {z : Int} (unsigned : |s| = 1) (large : 10 ^ 99 ≤ a)
    (near : |b - a| ≤ 1 / 2) (grid : OnGrid z (s * b * 10 ^ z)) :
    Refines (s * a * 10 ^ z) (s * b * 10 ^ z) := by
  have unit := unit_pos z
  have scaled : ∀ c : ℚ, |s * c * 10 ^ z| = |c| * 10 ^ z := by
    intro c
    rw [abs_mul, abs_mul, unsigned, one_mul, abs_of_pos unit]
  refine ⟨z, ?_, grid, ?_⟩
  · have place : 99 + z ≤ leading (s * a * 10 ^ z) := by
      apply le_leading
      rw [scaled, zpow_add₀ (by norm_num)]
      exact mul_le_mul_of_nonneg_right (large.trans (le_abs_self a)) unit.le
    omega
  · calc |s * b * 10 ^ z - s * a * 10 ^ z| = |b - a| * 10 ^ z := by rw [← scaled, mul_sub, sub_mul]
      _ ≤ 1 / 2 * 10 ^ z := mul_le_mul_of_nonneg_right near unit.le
      _ = 10 ^ z / 2 := by ring

/-- The exact quotient in terms of the digits that long division is given. -/
theorem toRat_div_eq {l r : Decimal} (hl : l.digits ≠ 0) (hr : r.digits ≠ 0) {num den : Nat}
    (hnum : l.digits.natAbs = num) (hden : r.digits.natAbs = den) (places : Nat) :
    l.toRat / r.toRat = (l.digits.sign * r.digits.sign : Int) *
      ((num * pow10 places : Nat) / den) * 10 ^ (-(l.scale - r.scale + places)) := by
  have scales : (10 : ℚ) ^ (-l.scale) / 10 ^ (-r.scale) =
      pow10 places * 10 ^ (-(l.scale - r.scale + places)) := by
    rw [pow10_cast, ← zpow_natCast, ← zpow_add₀ (by norm_num), ← zpow_sub₀ (by norm_num)]
    congr 1
    omega
  rw [toRat, toRat, cast_eq_sign_mul hnum, cast_eq_sign_mul hden, mul_div_mul_comm,
    mul_div_mul_comm, (sign_inv hl hr).2, scales]
  push_cast
  ring

/-- Long division comes as close to the exact quotient as a number of its scale can. -/
theorem longDivision_refines {l r : Decimal} (hl : l.digits ≠ 0) (hr : r.digits ≠ 0)
    {digits places : Nat}
    (eq : longDivision 100 l.digits.natAbs r.digits.natAbs = (digits, places)) :
    Refines (l.toRat / r.toRat)
      (toRat ⟨l.digits.sign * r.digits.sign * digits, l.scale - r.scale + places⟩) := by
  have positive := Int.natAbs_pos.2 hr
  obtain ⟨large, above, below⟩ := longDivision_near (Int.natAbs_pos.2 hl) positive eq
  have value := toRat_div_eq hl hr rfl rfl places
  have rounded : toRat ⟨l.digits.sign * r.digits.sign * digits, l.scale - r.scale + places⟩ =
      (l.digits.sign * r.digits.sign : Int) * digits * 10 ^ (-(l.scale - r.scale + places)) := by
    rw [toRat, Int.cast_mul, Int.cast_natCast]
  rw [value, rounded]
  apply refines_of_near (sign_inv hl hr).1 _ (near_div positive above below)
  · rw [← rounded]
    exact ⟨_, rfl⟩
  · rw [le_div_iff₀ (by exact_mod_cast positive)]
    exact_mod_cast large

theorem quotient_refines {l r : Decimal} (hl : l.digits ≠ 0) (hr : r.digits ≠ 0) :
    Refines (l.toRat / r.toRat) (quotient l r).toRat := by
  rw [quotient]
  split
  next short =>
    have one : r.equal one = true := by simpa [isZero, hl] using short
    have unit : r.toRat = 1 := by
      rw [(equal_iff_toRat ..).1 one, Decimal.one, toRat_ofInt, Int.cast_one]
    rw [unit, div_one]
    exact refines_self l
  next =>
    split
    next same =>
      have exact : l.toRat / r.toRat = toRat ⟨1, l.scale - r.scale⟩ := by
        have digits : (r.digits : ℚ) ≠ 0 := Int.cast_ne_zero.2 hr
        rw [toRat, toRat, toRat, same, mul_div_mul_left _ _ digits, ← zpow_sub₀ (by norm_num),
          Int.cast_one, one_mul, neg_sub_neg, neg_sub]
      rw [exact]
      exact refines_self _
    next => exact longDivision_refines hl hr rfl

/-! ### Both roundings -/

namespace Refines

variable {x y q : ℚ}

/-- The grid lies far below the first digit, and `x` stays where it is if it is on the grid. -/
theorem exists_unit (h : Refines x y) :
    ∃ z, z ≤ leading x - 99 ∧ OnGrid z y ∧ |y - x| ≤ 10 ^ z / 2 ∧ (OnGrid z x → y = x) := by
  obtain ⟨z, fine, grid, near⟩ := h
  refine ⟨z, fine, grid, near, ?_⟩
  intro own
  have unit := unit_pos z
  exact grid.eq_of_near own (by linarith)

/-- Rounding does not move the number over a power of ten. -/
theorem between (h : Refines x y) (nonzero : x ≠ 0) :
    10 ^ leading x ≤ |y| ∧ |y| ≤ 10 ^ (leading x + 1) := by
  obtain ⟨z, fine, grid, near, -⟩ := h.exists_unit
  have unit := unit_pos z
  have low := leading_le nonzero
  have high := lt_leading x
  have change := (abs_abs_sub_abs_le y x).trans near
  rw [abs_le] at change
  -- The powers lie on the grid, so a number of the grid beyond one of them is so by a whole unit,
  -- which is more than rounding has moved it.
  constructor
  · by_contra short
    have step := grid.abs.add_unit_le (onGrid_unit (by omega)) (lt_of_not_ge short)
    linarith
  · by_contra long
    have step := (onGrid_unit (by omega)).add_unit_le grid.abs (lt_of_not_ge long)
    linarith

theorem ne_zero (h : Refines x y) (nonzero : x ≠ 0) : y ≠ 0 := by
  have low := (h.between nonzero).1
  have unit := unit_pos (leading x)
  exact abs_pos.1 (by linarith)

/-- A carry moves the first digit of the number to the next place, and leaves zeros only. -/
theorem cutsTo (h : Refines x y) (nonzero : x ≠ 0) {count : Nat} (some : 0 < count)
    (cut : CutsTo (leading y + 1 - count) y q) : CutsTo (leading x + 1 - count) y q := by
  obtain ⟨low, high⟩ := h.between nonzero
  rcases high.lt_or_eq with within | carried
  · rwa [leading_eq low within] at cut
  · have place : leading y = leading x + 1 := by
      apply leading_eq carried.ge
      rw [carried, zpow_lt_zpow_iff_right₀ (by norm_num)]
      omega
    have zeros : OnGrid (leading y + 1 - count) y := by
      have size : OnGrid (leading y + 1 - count) |y| := by
        rw [carried]
        exact onGrid_unit (by omega)
      rcases abs_choice y with same | turned
      · rwa [same] at size
      · rw [turned] at size
        simpa using size.neg
    rw [cut.eq_of_onGrid (h.ne_zero nonzero) zeros]
    exact cutsTo_self (zeros.finer (by omega))

end Refines

/-- `q` is a quotient in sixteen digits for the exact quotient `x`. -/
structure Accurate (x q : ℚ) : Prop where
  sign : SignType.sign q = SignType.sign x
  grid : OnGrid (leading x - 15) q
  near : |q - x| < 10 ^ (leading x - 15)
  half : 0 < x → |q - x| ≤ (1 / 2 + 10 ^ (-80 : Int)) * 10 ^ (leading x - 15)
  exact : OnGrid (leading x - 15) x → q = x

section Combined

variable {x y q : ℚ} {z : Int}

/-- The unit of the first rounding, that of the second, and the exact quotient differ in size. -/
theorem units_le (nonzero : x ≠ 0) (fine : z ≤ leading x - 99) :
    10 ^ 84 * (10 : ℚ) ^ z ≤ 10 ^ (leading x - 15) ∧ 10 ^ (leading x - 15) ≤ |x| := by
  constructor
  · rw [← zpow_natCast, ← zpow_add₀ (by norm_num)]
    exact zpow_le_zpow_right₀ (by norm_num) (by omega)
  · apply le_trans _ (leading_le nonzero)
    exact zpow_le_zpow_right₀ (by norm_num) (by omega)

/-- Half a unit up or down, and the error of the first rounding. -/
theorem near_of_positive (positive : 0 < x) (refines : Refines x y)
    (cut : CutsTo (leading x - 15) y q) :
    0 < q ∧ |q - x| ≤ (1 / 2 + 10 ^ (-80 : Int)) * 10 ^ (leading x - 15) := by
  obtain ⟨z, fine, -, near, -⟩ := refines.exists_unit
  obtain ⟨tiny, wide⟩ := units_le positive.ne' fine
  have small := unit_pos z
  rw [abs_of_pos positive] at wide
  rw [abs_le] at near
  have half := cut.positive (by linarith)
  rw [abs_le] at half
  generalize (10 : ℚ) ^ (leading x - 15) = unit at tiny wide half
  have share : (10 : ℚ) ^ z / 2 ≤ 10 ^ (-80 : Int) * unit := by
    norm_num at tiny ⊢
    linarith
  constructor
  · linarith
  · rw [abs_le, add_mul]
    constructor <;> linarith

/-- Less than a unit towards zero: what is cut off is a whole number of small units, so it falls
short of the large one by more than the first rounding can add. -/
theorem near_of_negative (negative : x < 0) (refines : Refines x y)
    (cut : CutsTo (leading x - 15) y q) : q < 0 ∧ |q - x| < 10 ^ (leading x - 15) := by
  obtain ⟨z, fine, grid, near, -⟩ := refines.exists_unit
  obtain ⟨tiny, wide⟩ := units_le negative.ne fine
  have small := unit_pos z
  rw [abs_of_neg negative] at wide
  rw [abs_le] at near
  obtain ⟨below, above⟩ := cut.negative (by linarith)
  have step := (cut.grid.finer (by omega)).add_unit_le (grid.add (onGrid_unit (by omega))) above
  constructor
  · linarith
  · rw [abs_lt]
    constructor <;> linarith

theorem accurate_of_cut (nonzero : x ≠ 0) (refines : Refines x y)
    (cut : CutsTo (leading x - 15) y q) : Accurate x q := by
  have exact : OnGrid (leading x - 15) x → q = x := by
    intro own
    obtain ⟨z, fine, -, -, fixed⟩ := refines.exists_unit
    have same := fixed (own.finer (by omega))
    rw [same] at cut
    exact cut.eq_of_onGrid nonzero own
  have unit := unit_pos (leading x - 15)
  rcases lt_or_gt_of_ne nonzero with negative | positive
  · obtain ⟨sign, near⟩ := near_of_negative negative refines cut
    refine ⟨?_, cut.grid, near, ?_, exact⟩
    · rw [sign_neg sign, sign_neg negative]
    · intro positive
      exact absurd positive negative.not_gt
  · obtain ⟨sign, half⟩ := near_of_positive positive refines cut
    refine ⟨?_, cut.grid, ?_, fun _ => half, exact⟩
    · rw [sign_pos sign, sign_pos positive]
    · apply half.trans_lt
      norm_num
      linarith

end Combined

theorem div_accurate {l r : Decimal} (hl : l.toRat ≠ 0) (hr : r.toRat ≠ 0) :
    Accurate (l.toRat / r.toRat) (l.div r).toRat := by
  have nonzero : l.toRat / r.toRat ≠ 0 := div_ne_zero hl hr
  have refines : Refines (l.toRat / r.toRat) (quotient l r).toRat :=
    quotient_refines (mt l.toRat_eq_zero_iff.2 hl) (mt r.toRat_eq_zero_iff.2 hr)
  have digits : (quotient l r).digits ≠ 0 :=
    mt (quotient l r).toRat_eq_zero_iff.2 (refines.ne_zero nonzero)
  have cut := refines.cutsTo nonzero (by decide) (withDigits_cuts digits 16)
  have place : leading (l.toRat / r.toRat) + 1 - (16 : Nat) = leading (l.toRat / r.toRat) - 15 := by
    omega
  rw [place] at cut
  exact accurate_of_cut nonzero refines cut

end Decimal

namespace Value

/-- Division where an operand is a decimal. -/
theorem divide_eq_div {l r : Value} {a b : ℚ} (hl : l.number? = some a) (hr : r.number? = some b)
    (promotes : Promotes l r) (nonzero : b ≠ 0) :
    ∃ c d : Decimal, a = c.toRat ∧ b = d.toRat ∧ l.divide r = .ok (dec (c.div d)) := by
  have paired := paired_numbers? hl hr
  unfold divide
  generalize numbers? l r = numbers at paired
  cases paired with
  | ints _ _ other => exact absurd promotes other
  | @decs c d left right =>
    have divisor : d.isZero = false := by
      rw [Decimal.isZero, beq_eq_false_iff_ne]
      intro zero
      exact nonzero (right.trans (d.toRat_eq_zero_iff.2 zero))
    refine ⟨c, d, left, right, ?_⟩
    simp [divisor]

end Value

/-- Decimal division is accurate to one unit in the sixteenth significant digit. The result has the
sign of the exact quotient and is an integer multiple of that unit; it is less than a unit away,
half a unit and a trace at most if the quotient is positive, and exact wherever the quotient is a
multiple of the unit. -/
theorem divide_is_accurate {l r : Value} {a b : ℚ} (hl : l.number? = some a)
    (hr : r.number? = some b) (decimal : l.type = .dec ∨ r.type = .dec) (ha : a ≠ 0)
    (hb : b ≠ 0) :
    ∃ q : Decimal, l.divide r = .ok (.dec q) ∧
      let x := a / b
      let u : ℚ := 10 ^ (Int.log 10 |x| - 15)
      SignType.sign q.toRat = SignType.sign x ∧
      (∃ k : Int, q.toRat = k * u) ∧
      |q.toRat - x| < u ∧
      (0 < x → |q.toRat - x| ≤ (1 / 2 + 10 ^ (-80 : Int)) * u) ∧
      ((∃ k : Int, x = k * u) → q.toRat = x) := by
  obtain ⟨c, d, rfl, rfl, result⟩ := Value.divide_eq_div hl hr decimal hb
  obtain ⟨sign, grid, near, half, exact⟩ := Decimal.div_accurate ha hb
  exact ⟨c.div d, result, sign, grid, near, half, exact⟩

/-- Two thirds below zero are cut and not rounded. -/
theorem divide_two_by_minus_three :
    (Value.int 2).number? = some 2 ∧ (Value.dec ⟨-30, 1⟩).number? = some (-3) ∧
    (Value.int 2).divide (.dec ⟨-30, 1⟩) = .ok (.dec ⟨-6666666666666666, 16⟩) ∧
    |Decimal.toRat ⟨-6666666666666666, 16⟩ - 2 / -3| <
      10 ^ (Int.log 10 |(2 / -3 : ℚ)| - 15) := by
  have left : (Value.int 2).number? = some 2 := rfl
  have right : (Value.dec ⟨-30, 1⟩).number? = some (-3) := by
    norm_num [Value.number?, Decimal.toRat]
  obtain ⟨q, result, -, -, near, -⟩ :=
    divide_is_accurate left right (.inr rfl) (by norm_num) (by norm_num)
  have cut : (Decimal.ofInt 2).div ⟨-30, 1⟩ = ⟨-6666666666666666, 16⟩ := by decide +kernel
  have value : (Value.int 2).divide (.dec ⟨-30, 1⟩) = .ok (.dec ⟨-6666666666666666, 16⟩) := by
    rw [← cut]
    rfl
  rw [value] at result
  cases result
  exact ⟨left, right, value, near⟩

end ExprLang
