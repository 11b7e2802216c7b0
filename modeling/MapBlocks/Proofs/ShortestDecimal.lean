import Mathlib.Algebra.Order.Field.Rat
import Mathlib.Algebra.Order.Field.Basic
import Mathlib.Algebra.Order.Field.Power
import Mathlib.Tactic.Ring
import Mathlib.Tactic.Linarith
import Mathlib.Tactic.Positivity
import MapBlocks.Decimal.Shortest

/-!
# The shortest decimal rounds to its double

The search for the shortest decimal looks at ever finer grids of powers of ten.
On the last of them one step is no longer than the gap to the next double, so
that the search always finds a decimal, and it only ever finds decimals in the
rounding interval.
-/

namespace MapBlocks.Decimal

/-- The number that a decimal is. -/
def Scaled.value (decimal : Scaled) : ℚ := decimal.digits * (10 : ℚ) ^ decimal.exponent

namespace RoundingInterval

variable (interval : RoundingInterval)

/-- The numbers in an interval. Its ends are in it or not, both alike. -/
def Holds (x : ℚ) : Prop :=
  if interval.closed then
    interval.lower * (2 : ℚ) ^ interval.exponent ≤ x ∧
      x ≤ interval.upper * (2 : ℚ) ^ interval.exponent
  else
    interval.lower * (2 : ℚ) ^ interval.exponent < x ∧
      x < interval.upper * (2 : ℚ) ^ interval.exponent

theorem pow_toNat (base : ℚ) (nonzero : base ≠ 0) (exponent : ℤ) :
    base ^ exponent * base ^ (-exponent).toNat = base ^ exponent.toNat := by
  cases exponent with
  | ofNat n => simp
  | negSucc n =>
      have positive : (-Int.negSucc n).toNat = n + 1 := rfl
      have negative : (Int.negSucc n).toNat = 0 := rfl
      rw [positive, negative, zpow_negSucc, pow_zero]
      exact inv_mul_cancel₀ (pow_ne_zero _ nonzero)

theorem unitAt_eq (place : ℤ) :
    ((interval.unitAt place).1 : ℚ) * (10 : ℚ) ^ place =
      (interval.unitAt place).2 * (2 : ℚ) ^ interval.exponent := by
  have two := pow_toNat 2 (by norm_num) interval.exponent
  have ten := pow_toNat 10 (by norm_num) place
  simp only [unitAt, Nat.pow_eq, Nat.cast_mul, Nat.cast_pow, Nat.cast_ofNat]
  rw [← two, ← ten]
  ring

theorem unitAt_pos (place : ℤ) :
    0 < (interval.unitAt place).1 ∧ 0 < (interval.unitAt place).2 := by
  simp only [unitAt, Nat.pow_eq]
  constructor <;> positivity

/-- A bound in units and a multiple of a power of ten compare like the numbers that
they stand for. -/
theorem compare_units (place : ℤ) (bound digits : ℕ) :
    (bound * (interval.unitAt place).1 ≤ digits * (interval.unitAt place).2 ↔
      bound * (2 : ℚ) ^ interval.exponent ≤ digits * (10 : ℚ) ^ place) ∧
    (digits * (interval.unitAt place).2 ≤ bound * (interval.unitAt place).1 ↔
      digits * (10 : ℚ) ^ place ≤ bound * (2 : ℚ) ^ interval.exponent) := by
  have numerator : (0 : ℚ) < (interval.unitAt place).1 :=
    Nat.cast_pos.mpr (interval.unitAt_pos place).1
  have scale : (0 : ℚ) < (2 : ℚ) ^ interval.exponent := by positivity
  have same := interval.unitAt_eq place
  have left : ((bound * (interval.unitAt place).1 : ℕ) : ℚ) * (2 : ℚ) ^ interval.exponent =
      (interval.unitAt place).1 * (bound * (2 : ℚ) ^ interval.exponent) := by
    rw [Nat.cast_mul]
    ring
  have right : ((digits * (interval.unitAt place).2 : ℕ) : ℚ) * (2 : ℚ) ^ interval.exponent =
      (interval.unitAt place).1 * (digits * (10 : ℚ) ^ place) := by
    rw [Nat.cast_mul, mul_assoc, ← same]
    ring
  constructor
  · rw [← Nat.cast_le (α := ℚ), ← mul_le_mul_iff_left₀ scale, left, right,
      mul_le_mul_iff_right₀ numerator]
  · rw [← Nat.cast_le (α := ℚ), ← mul_le_mul_iff_left₀ scale, left, right,
      mul_le_mul_iff_right₀ numerator]

theorem admits_iff (place : ℤ) (digits : ℕ) :
    interval.admits place digits = true ↔ interval.Holds (digits * (10 : ℚ) ^ place) := by
  have lower := interval.compare_units place interval.lower digits
  have upper := interval.compare_units place interval.upper digits
  simp only [admits, Holds]
  split
  · simp only [Bool.and_eq_true, decide_eq_true_eq, lower.1, upper.2]
  · simp only [Bool.and_eq_true, decide_eq_true_eq, ← not_le, lower.2, upper.1]

theorem holds_of_multipleAt?
    {tie : Tie} {place : ℤ} {decimal : Scaled}
    (found : interval.multipleAt? tie place = some decimal) :
    interval.Holds decimal.value := by
  simp only [multipleAt?] at found
  split at found
  case h_1 => cases found
  all_goals
    cases found
    refine (interval.admits_iff place _).mp ?_
    repeat' split
    all_goals assumption

/-- A grid that is finer than the distance of the double to both ends has a multiple
in the interval. -/
theorem multipleAt?_isSome
    {place : ℤ} (fine : (interval.unitAt place).2 ≤ (interval.unitAt place).1)
    (below : interval.lower + 1 ≤ interval.value) (above : interval.value + 1 ≤ interval.upper)
    (tie : Tie) : (interval.multipleAt? tie place).isSome = true := by
  have admitted : interval.admits place
      (interval.value * (interval.unitAt place).1 / (interval.unitAt place).2) = true := by
    have positive := interval.unitAt_pos place
    simp only [admits]
    generalize (interval.unitAt place).1 = numerator at *
    generalize (interval.unitAt place).2 = denominator at *
    have low := Nat.mul_le_mul_right numerator below
    have high := Nat.mul_le_mul_right numerator above
    have floor := Nat.div_mul_le_self (interval.value * numerator) denominator
    have ceiling := Nat.lt_div_mul_add (a := interval.value * numerator) positive.2
    rw [Nat.add_mul, Nat.one_mul] at low high
    split
    · simp only [Bool.and_eq_true, decide_eq_true_eq]
      omega
    · simp only [Bool.and_eq_true, decide_eq_true_eq]
      omega
  simp only [multipleAt?, admitted]
  split <;> simp_all

/-- Powers compare like their exponents if the bases compare at some rate. -/
theorem pow_le_pow_of_rate
    {a b rateA rateB n m : ℕ} (positive : 0 < b) (rate : a ^ rateA ≤ b ^ rateB)
    (nonzero : rateA ≠ 0) (bound : rateB * n ≤ rateA * m) : a ^ n ≤ b ^ m := by
  refine (Nat.pow_le_pow_iff_left nonzero).mp ?_
  calc
    (a ^ n) ^ rateA = (a ^ rateA) ^ n := by rw [← pow_mul, ← pow_mul, Nat.mul_comm]
    _ ≤ (b ^ rateB) ^ n := Nat.pow_le_pow_left rate n
    _ = b ^ (rateB * n) := (pow_mul b rateB n).symm
    _ ≤ b ^ (rateA * m) := Nat.pow_le_pow_right positive bound
    _ = (b ^ m) ^ rateA := by rw [← pow_mul, Nat.mul_comm]

/-- The significand and exponent of a finite double, in the form in which the bits hold
them. -/
structure Canonical (significand : ℕ) (exponent : ℤ) : Prop where
  fits : significand < 2 ^ 53
  least : -1074 ≤ exponent
  greatest : exponent ≤ 971
  /-- Only the least exponent has significands that are not full. -/
  full : -1074 < exponent → 2 ^ 52 ≤ significand

variable {significand : ℕ} {exponent : ℤ} (canonical : Canonical significand exponent)

include canonical

theorem topPlace_around_le :
    (around significand exponent).topPlace ≤ (exponent + 53) * 1233 / 4096 + 1 := by
  have fits := canonical.fits
  have log : Nat.log2 (4 * significand + 2) < 55 := by
    rw [Nat.log2_lt (by omega)]
    omega
  simp only [topPlace, around]
  omega

/-- On the last grid of the search, one step is at most a quarter of the gap between
doubles. -/
theorem lastPlace_fine :
    let place := (around significand exponent).topPlace - 23
    ((around significand exponent).unitAt place).2 ≤
      ((around significand exponent).unitAt place).1 := by
  intro place
  have top := topPlace_around_le canonical
  have least := canonical.least
  have greatest := canonical.greatest
  have placed : place = (around significand exponent).topPlace - 23 := rfl
  have units : (around significand exponent).exponent = exponent - 2 := rfl
  simp only [unitAt, units, Nat.pow_eq]
  clear_value place
  by_cases negative : exponent - 2 < 0
  · have noDigits : place.toNat = 0 := by omega
    have noBits : (exponent - 2).toNat = 0 := by omega
    have steps : 2 ^ (-(exponent - 2)).toNat ≤ 10 ^ (-place).toNat :=
      pow_le_pow_of_rate (by decide) (by decide : 2 ^ 93 ≤ 10 ^ 28) (by decide) (by omega)
    simpa [noDigits, noBits] using steps
  · have noBits : (-(exponent - 2)).toNat = 0 := by omega
    have steps : 10 ^ place.toNat ≤ 2 ^ (exponent - 2).toNat :=
      pow_le_pow_of_rate (by decide) (by decide : 10 ^ 3 ≤ 2 ^ 10) (by decide) (by omega)
    rw [noBits, pow_zero, Nat.one_mul]
    exact steps.trans (Nat.le_mul_of_pos_right _ (by positivity))

/-- The last grid has a multiple in the interval, so that the search finds a decimal. -/
theorem exists_search (positive : 0 < significand) (tie : Tie) :
    ∃ decimal, (around significand exponent).places.findSome?
      ((around significand exponent).multipleAt? tie) = some decimal := by
  have last : (around significand exponent).topPlace - 23 ∈ (around significand exponent).places :=
    List.mem_map.mpr ⟨23, by decide, rfl⟩
  have below : (around significand exponent).lower + 1 ≤ (around significand exponent).value := by
    simp only [around]
    split <;> omega
  have above : (around significand exponent).value + 1 ≤ (around significand exponent).upper := by
    simp only [around]
    omega
  have found := multipleAt?_isSome _ (lastPlace_fine canonical) below above tie
  exact Option.isSome_iff_exists.mp (List.findSome?_isSome_iff.mpr ⟨_, last, found⟩)

/-- The shortest decimal of a positive double rounds to the double. -/
theorem holds_shortest (positive : 0 < significand) (tie : Tie) :
    (around significand exponent).Holds ((around significand exponent).shortest tie).value := by
  obtain ⟨decimal, reached⟩ := exists_search canonical positive tie
  obtain ⟨place, -, multiple⟩ := List.exists_of_findSome?_eq_some reached
  rw [shortest, reached]
  exact holds_of_multipleAt? _ multiple

end RoundingInterval

end MapBlocks.Decimal
