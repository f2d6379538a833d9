import ExprLang.Proofs.Numbers
import ExprLang.Proofs.RoundTrip.Literals
import Mathlib.Tactic.FieldSimp

set_option autoImplicit false

/-!
Decimals as they are printed. Each number has one form in which no digit can be dropped, and this
form is written: without zeros in front or at the end, with a point only where something follows it,
and never with an exponent. So the text tells the number, and the number tells the text.
-/

namespace ExprLang

open Literal (digitsValue)

/-! ### Numerals -/

/-- A number in writing: a sign, the digits before the point and the digits after it. -/
structure Numeral where
  negative : Bool
  whole : List Char
  fraction : List Char
  deriving DecidableEq

namespace Numeral

/-- The point is written only if there is something after it. -/
def text (n : Numeral) : List Char :=
  (if n.negative then ['-'] else []) ++
    (n.whole ++ if n.fraction = [] then [] else '.' :: n.fraction)

/-- Takes a text without a sign apart at the first point. -/
def split (negative : Bool) (unsigned : List Char) : Numeral :=
  ⟨negative, unsigned.takeWhile (· ≠ '.'), (unsigned.dropWhile (· ≠ '.')).drop 1⟩

/-- The parts of a text. -/
def ofText (text : List Char) : Numeral :=
  if text.head? = some '-' then split true text.tail else split false text

/-- The number that is written. -/
def value (n : Numeral) : ℚ :=
  (if n.negative then -1 else 1) *
    (digitsValue n.whole + digitsValue n.fraction / 10 ^ n.fraction.length)

/-- Only digits are written, and none that could be left out. -/
structure Canonical (n : Numeral) : Prop where
  numeral : ∀ c ∈ n.whole ++ n.fraction, c.isDigit = true
  nonempty : n.whole ≠ []
  leading : n.whole = ['0'] ∨ n.whole.head? ≠ some '0'
  trailing : n.fraction.getLast? ≠ some '0'

theorem ne_of_isDigit {c d : Char} (digit : c.isDigit = true) (other : d.isDigit = false) :
    c ≠ d := by
  rintro rfl
  rw [digit] at other
  cases other

theorem split_append {whole fraction : List Char} (negative : Bool)
    (digits : ∀ c ∈ whole, c.isDigit = true) :
    split negative (whole ++ if fraction = [] then [] else '.' :: fraction) =
      ⟨negative, whole, fraction⟩ := by
  have before : ∀ c ∈ whole, decide (c ≠ '.') = true := fun c inside =>
    decide_eq_true (ne_of_isDigit (digits c inside) rfl)
  have point : ∀ c ∈ (if fraction = [] then [] else '.' :: fraction).head?,
      decide (c ≠ '.') = false := by
    intro c first
    split at first
    · cases first
    · cases first
      decide
  obtain ⟨taken, left⟩ := Lexes.run_of_stop before point
  rw [split, taken, left]
  by_cases none : fraction = []
  · rw [if_pos none, none, List.drop_nil]
  · rw [if_neg none, List.drop_succ_cons, List.drop_zero]

/-- The parts can be told from the text. -/
theorem Canonical.ofText_text {n : Numeral} (h : n.Canonical) : ofText n.text = n := by
  obtain ⟨negative, whole, fraction⟩ := n
  have digits : ∀ c ∈ whole, c.isDigit = true := fun c inside =>
    h.numeral c (List.mem_append_left _ inside)
  cases negative with
  | true => exact split_append true digits
  | false =>
    -- The first digit is not taken for a sign.
    have unsigned : ∀ rest : List Char, (whole ++ rest).head? ≠ some '-' := by
      intro rest minus
      obtain ⟨c, cs, rfl⟩ := List.exists_cons_of_ne_nil h.nonempty
      exact ne_of_isDigit (digits c (List.mem_cons_self ..)) rfl (Option.some.inj minus)
    exact (if_neg (unsigned _)).trans (split_append false digits)

end Numeral

/-! ### Forms of a number -/

namespace Decimal

/-- No digit can be dropped: the last one is not zero, and zero has no places. -/
def Reduced (d : Decimal) : Prop :=
  d = zero ∨ ¬ (10 : Int) ∣ d.digits

/-- Zeros at the end are dropped, and the scale makes up for them. -/
theorem dropZeros_spec (digits : Nat) (scale : Int) :
    ∃ k : Nat, digits = (dropZeros digits scale).1 * 10 ^ k ∧
      (dropZeros digits scale).2 = scale - k ∧
      (digits ≠ 0 → (dropZeros digits scale).1 % 10 ≠ 0) := by
  fun_induction dropZeros digits scale with
  | case1 digits scale stop =>
    refine ⟨0, by simp, by simp, fun nonzero => ?_⟩
    exact stop.resolve_left nonzero
  | case2 digits scale more ih =>
    obtain ⟨k, value, places, last⟩ := ih
    refine ⟨k + 1, ?_, by push_cast; omega, fun nonzero => last (by omega)⟩
    rw [pow_succ, ← mul_assoc, ← value]
    omega

theorem normalize_of_ne_zero {d : Decimal} (nonzero : d.digits ≠ 0) :
    ∃ k : Nat, d.digits = d.normalize.digits * 10 ^ k ∧ d.normalize.scale = d.scale - k ∧
      ¬ (10 : Int) ∣ d.normalize.digits := by
  obtain ⟨k, value, places, last⟩ := dropZeros_spec d.digits.natAbs d.scale
  have last := last (Int.natAbs_ne_zero.2 nonzero)
  rw [normalize, if_neg nonzero]
  dsimp only
  generalize dropZeros d.digits.natAbs d.scale = dropped at value places last
  obtain ⟨digits, scale⟩ := dropped
  dsimp only at value places last ⊢
  refine ⟨k, ?_, places, ?_⟩
  · calc d.digits = d.digits.sign * d.digits.natAbs := (Int.sign_mul_natAbs _).symm
      _ = d.digits.sign * (digits * 10 ^ k : Nat) := by rw [value]
      _ = d.digits.sign * digits * 10 ^ k := by push_cast; ring
  · rcases Int.lt_or_gt_of_ne nonzero with neg | pos
    · rw [Int.sign_eq_neg_one_of_neg neg]
      omega
    · rw [Int.sign_eq_one_of_pos pos]
      omega

theorem reduced_normalize (d : Decimal) : d.normalize.Reduced := by
  by_cases nonzero : d.digits = 0
  · rw [normalize, if_pos nonzero]
    exact .inl rfl
  · obtain ⟨k, -, -, last⟩ := normalize_of_ne_zero nonzero
    exact .inr last

theorem toRat_normalize (d : Decimal) : d.normalize.toRat = d.toRat := by
  by_cases zero : d.digits = 0
  · rw [(toRat_eq_zero_iff d).2 zero, toRat_eq_zero_iff, normalize, if_pos zero]
    rfl
  · obtain ⟨k, value, places, -⟩ := normalize_of_ne_zero zero
    have units : (10 : ℚ) ^ (-d.normalize.scale) = 10 ^ k * 10 ^ (-d.scale) := by
      rw [places, ← zpow_natCast, ← zpow_add₀ (by norm_num)]
      congr 1
      omega
    rw [toRat, toRat, units, value]
    push_cast
    ring

/-- The same number in a finer unit has a zero at the end, unless the unit is the same. -/
theorem eq_of_toRat_eq_of_le {a b : Decimal} (last : ¬ (10 : Int) ∣ b.digits)
    (le : a.scale ≤ b.scale) (same : a.toRat = b.toRat) : a = b := by
  have shifted : a.digitsAt b.scale = b.digits := by
    rw [toRat_eq_at le, toRat] at same
    exact_mod_cast mul_right_cancel₀ (unit_pos _).ne' same
  obtain ⟨n, gap⟩ := Int.le.dest le
  have places : (b.scale - a.scale).toNat = n := by omega
  rw [digitsAt, places] at shifted
  cases n with
  | zero =>
    obtain ⟨digits, scale⟩ := a
    obtain ⟨digits', scale'⟩ := b
    dsimp only at gap shifted
    rw [← gap, ← shifted]
    simp [pow10]
  | succ n =>
    have zero : (10 : Int) ∣ (pow10 (n + 1) : Int) := ⟨10 ^ n, by simp [pow10, Int.pow_succ']⟩
    rw [← shifted] at last
    exact absurd (Dvd.dvd.mul_left zero _) last

/-- A number has one form in which no digit can be dropped. -/
theorem Reduced.eq_of_toRat_eq {a b : Decimal} (ha : a.Reduced) (hb : b.Reduced)
    (same : a.toRat = b.toRat) : a = b := by
  have alone {c : Decimal} (hc : c.Reduced) (nothing : c.toRat = 0) : c = zero := by
    refine hc.resolve_right fun last => last ?_
    rw [(toRat_eq_zero_iff c).1 nothing]
    exact dvd_zero 10
  have nothing : zero.toRat = 0 := (toRat_eq_zero_iff zero).2 rfl
  rcases ha with rfl | lastA
  · exact (alone hb (same.symm.trans nothing)).symm
  · rcases hb with rfl | lastB
    · exact alone (.inr lastA) (same.trans nothing)
    · rcases Int.le_total a.scale b.scale with le | le
      · exact eq_of_toRat_eq_of_le lastB le same
      · exact (eq_of_toRat_eq_of_le lastA le same.symm).symm

/-- Places after the point are needed exactly for what is no integer. -/
theorem scale_nonpos_iff {d : Decimal} (last : ¬ (10 : Int) ∣ d.digits) :
    d.scale ≤ 0 ↔ ∃ z : Int, d.toRat = z := by
  constructor
  · intro integral
    refine ⟨d.digitsAt 0, ?_⟩
    rw [toRat_eq_at integral, neg_zero, zpow_zero, mul_one]
  · rintro ⟨z, value⟩
    by_contra fractional
    rw [← toRat_ofInt] at value
    have same := eq_of_toRat_eq_of_le last (Int.le_of_lt (Int.not_le.1 fractional)) value.symm
    exact fractional (Int.le_of_eq (congrArg scale same).symm)

/-! ### The text of a number -/

theorem digitsValue_append (front back : List Char) :
    digitsValue (front ++ back) = digitsValue front * 10 ^ back.length + digitsValue back := by
  rw [Literal.digitsValue_eq, Literal.digitsValue_eq, Literal.digitsValue_eq,
    Nat.ofDigitChars_append, Nat.ofDigitChars_eq_ofDigitChars_zero, Nat.mul_comm]

/-- The digits before and after the point, and the number that they stand for. -/
structure Written (digits : Nat) (scale : Int) (whole fraction : List Char) : Prop where
  text : pointed digits scale = whole ++ if fraction = [] then [] else '.' :: fraction
  numeral : ∀ c ∈ whole ++ fraction, c.isDigit = true
  nonempty : whole ≠ []
  leading : whole = ['0'] ∨ whole.head? ≠ some '0'
  trailing : fraction.getLast? ≠ some '0'
  integral : fraction = [] ↔ scale ≤ 0
  value : (digitsValue whole + digitsValue fraction / 10 ^ fraction.length : ℚ) =
    digits * 10 ^ (-scale)

theorem written_of_nonpos {digits : Nat} (pos : 0 < digits) {scale : Int} (integral : scale ≤ 0) :
    ∃ whole fraction, Written digits scale whole fraction := by
  refine ⟨Nat.toDigits 10 digits ++ List.replicate scale.natAbs '0', [], ?_⟩
  obtain ⟨c, cs, first⟩ := List.exists_cons_of_ne_nil (Nat.toDigits_ne_nil (n := digits))
  have leading := head?_toDigits_ne_zero pos
  have zeros : digitsValue (List.replicate scale.natAbs '0') = 0 := Nat.ofDigitChars_replicate_zero
  have read : digitsValue (Nat.toDigits 10 digits) = digits := Nat.ofDigitChars_ten_toDigits
  constructor
  case text => exact (if_pos integral).trans (List.append_nil _).symm
  case numeral =>
    intro c inside
    rw [List.append_nil, List.mem_append, List.mem_replicate] at inside
    rcases inside with inside | ⟨-, rfl⟩
    · exact isDigit_of_mem_toDigits inside
    · decide
  case nonempty => exact List.append_ne_nil_of_left_ne_nil Nat.toDigits_ne_nil _
  case leading =>
    rw [first] at leading ⊢
    exact .inr leading
  case trailing => exact fun none => by cases none
  case integral => exact iff_of_true rfl integral
  case value =>
    have units : -scale = (scale.natAbs : Int) := by omega
    rw [digitsValue_append, zeros, read, List.length_replicate, units, zpow_natCast]
    push_cast
    simp [digitsValue]

theorem written_of_pos {digits : Nat} (last : digits % 10 ≠ 0) {scale : Int} (pos : 0 < scale) :
    ∃ whole fraction, Written digits scale whole fraction := by
  obtain ⟨places, rfl⟩ := Int.eq_ofNat_of_zero_le (Int.le_of_lt pos)
  have pos : 0 < places := by omega
  obtain ⟨whole, fraction, split⟩ := pointed_split digits pos
  have some := split.fraction_ne_nil pos
  have sum := split.value
  refine ⟨whole, fraction, ?_⟩
  constructor
  case text => rw [if_neg some, split.text]
  case numeral => exact split.numeral
  case nonempty => exact split.nonempty
  case leading => exact split.leading
  case trailing =>
    intro zero
    obtain ⟨front, rfl⟩ := List.getLast?_eq_some_iff.1 zero
    rw [← List.append_assoc, digitsValue_append] at sum
    have shift : digitsValue (whole ++ front) * 10 + 0 = digits := sum
    omega
  case integral => exact iff_of_false some (by omega)
  case value =>
    rw [digitsValue_append, split.length] at sum
    rw [split.length, zpow_neg, zpow_natCast, ← sum]
    push_cast
    field_simp

/-- The numeral that a number is written as. -/
structure WrittenAs (d : Decimal) (n : Numeral) : Prop where
  text : d.signText ++ pointed d.digits.natAbs d.scale = n.text
  canonical : n.Canonical
  value : n.value = d.toRat
  negative : n.negative = true ↔ d.toRat < 0
  integral : n.fraction = [] ↔ ∃ z : Int, d.toRat = z

theorem Written.writtenAs {d : Decimal} {whole fraction : List Char}
    (last : ¬ (10 : Int) ∣ d.digits) (written : Written d.digits.natAbs d.scale whole fraction) :
    d.WrittenAs ⟨decide (d.digits < 0), whole, fraction⟩ := by
  have unit := unit_pos (-d.scale)
  have sign : d.toRat < 0 ↔ d.digits < 0 := by
    rw [← not_le, ← not_le, toRat, mul_nonneg_iff_of_pos_right unit, Int.cast_nonneg_iff]
  constructor
  case text =>
    rw [written.text, signText, Numeral.text]
    simp only [decide_eq_true_eq]
  case canonical =>
    exact ⟨written.numeral, written.nonempty, written.leading, written.trailing⟩
  case value =>
    rw [Numeral.value, written.value, toRat]
    by_cases negative : d.digits < 0
    · have magnitude : (d.digits : ℚ) = -(d.digits.natAbs : ℚ) := by
        rw [Nat.cast_natAbs, abs_of_neg negative, Int.cast_neg, neg_neg]
      simp only [negative, decide_true, if_true, magnitude]
      ring
    · have magnitude : (d.digits : ℚ) = (d.digits.natAbs : ℚ) := by
        rw [Nat.cast_natAbs, abs_of_nonneg (Int.not_lt.1 negative)]
      simp only [negative, decide_false, Bool.false_eq_true, if_false, magnitude, one_mul]
  case negative => rw [decide_eq_true_eq, sign]
  case integral => exact written.integral.trans (scale_nonpos_iff last)

theorem Reduced.exists_numeral {d : Decimal} (h : d.Reduced) : ∃ n, d.WrittenAs n := by
  rcases h with rfl | last
  · have value : zero.toRat = 0 := (toRat_eq_zero_iff zero).2 rfl
    refine ⟨⟨false, ['0'], []⟩, rfl, ?_, ?_, ?_, ?_⟩
    · exact ⟨List.forall_mem_singleton.2 rfl, List.cons_ne_nil _ _, .inl rfl, by decide⟩
    · rw [value]
      simp [Numeral.value, digitsValue]
    · rw [value]
      exact iff_of_false Bool.false_ne_true (lt_irrefl 0)
    · exact iff_of_true rfl ⟨0, by rw [value, Int.cast_zero]⟩
  · have last' : d.digits.natAbs % 10 ≠ 0 := by omega
    rcases lt_or_ge 0 d.scale with pos | nonpos
    · obtain ⟨whole, fraction, written⟩ := written_of_pos last' pos
      exact ⟨_, written.writtenAs last⟩
    · have some : 0 < d.digits.natAbs := Nat.pos_of_ne_zero fun none => last' (by rw [none])
      obtain ⟨whole, fraction, written⟩ := written_of_nonpos some nonpos
      exact ⟨_, written.writtenAs last⟩

/-- The numeral that a number is printed as. -/
theorem exists_numeral_of_plain (d : Decimal) :
    ∃ n : Numeral, d.plain = String.ofList n.text ∧ n.Canonical ∧ n.value = d.toRat ∧
      (n.negative = true ↔ d.toRat < 0) ∧ (n.fraction = [] ↔ ∃ z : Int, d.toRat = z) := by
  obtain ⟨n, text, canonical, value, negative, integral⟩ := (reduced_normalize d).exists_numeral
  rw [toRat_normalize] at value negative integral
  exact ⟨n, congrArg String.ofList text, canonical, value, negative, integral⟩

theorem plain_eq_of_toRat_eq {a b : Decimal} (same : a.toRat = b.toRat) : a.plain = b.plain := by
  rw [← toRat_normalize a, ← toRat_normalize b] at same
  have form := (reduced_normalize a).eq_of_toRat_eq (reduced_normalize b) same
  rw [plain, plain, form]

end Decimal

/-- A decimal is printed as a canonical numeral: perhaps a minus sign, for a number below zero, an
integer without zeros in front, and for what is no integer a point and digits, of which the last is
not zero. The text stands for the number itself, so that two decimals are printed alike exactly if
they are the same number, which is what equality of values says. -/
theorem decimals_print_canonically (a : Decimal) :
    (∃ n : Numeral, (Value.dec a).render = String.ofList n.text ∧ n.Canonical ∧
      (n.negative = true ↔ a.toRat < 0) ∧ (n.fraction = [] ↔ ∃ z : Int, a.toRat = z)) ∧
    (Numeral.ofText (Value.dec a).render.toList).value = a.toRat ∧
    ∀ b : Decimal, ((Value.dec a).render = (Value.dec b).render ↔ a.toRat = b.toRat) ∧
      ((Value.dec a).render = (Value.dec b).render ↔ (Value.dec a).equal (.dec b) = true) := by
  have denotes (d : Decimal) : (Numeral.ofText (Value.dec d).render.toList).value = d.toRat := by
    obtain ⟨n, text, canonical, value, -⟩ := d.exists_numeral_of_plain
    rw [Value.render, text, String.toList_ofList, canonical.ofText_text, value]
  have alike (b : Decimal) : (Value.dec a).render = (Value.dec b).render ↔ a.toRat = b.toRat := by
    constructor
    · intro same
      rw [← denotes a, ← denotes b, same]
    · intro same
      rw [Value.render, Value.render, Decimal.plain_eq_of_toRat_eq same]
  refine ⟨?_, denotes a, fun b => ⟨alike b, ?_⟩⟩
  · obtain ⟨n, text, canonical, -, negative, integral⟩ := a.exists_numeral_of_plain
    exact ⟨n, by rw [Value.render, text], canonical, negative, integral⟩
  · rw [alike b]
    exact (Value.equal_iff_number? (a := .dec a) (b := .dec b) rfl rfl rfl).symm

end ExprLang
