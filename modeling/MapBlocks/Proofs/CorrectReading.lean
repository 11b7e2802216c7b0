import MapBlocks.Proofs.CorrectRounding
import MapBlocks.Proofs.NearestDoubles
import MapBlocks.Proofs.WholeNumbers

/-!
# Numerals read correctly

A numeral stands for a rational number, and it is read as the double nearest to that
number, with the sign that is written.
-/

namespace MapBlocks.Decimal

section Arithmetic

open Float.Model Float.Model.UnpackedFloat

variable {first second : ℕ} {exponent other : ℤ}

theorem represents_scaled_exact (significand : ℕ) (exponent : ℤ) :
    Represents (.ofMantissaAndAccuracy significand .exact)
      (significand * (2 : ℚ) ^ exponent / 2 ^ exponent) := by
  rw [mul_div_cancel_right₀ _ (unit_pos exponent).ne']
  exact represents_exact significand

theorem roundsTo_mul
    (positive : 0 < first) (positiveOther : 0 < second)
    (fine : exponent + other ≤
      Format.binary64.targetExponent (totalExponent (first * second) (exponent + other))) :
    RoundsTo false (first * (2 : ℚ) ^ exponent * (second * 2 ^ other))
      (Binary.ofFloat (.ofModel (.pack (UnpackedFloat.mul Format.binary64
        (.finite .positive first exponent positive)
        (.finite .positive second other positiveOther))))) := by
  have value : first * (2 : ℚ) ^ exponent * (second * 2 ^ other) =
      (first * second : ℕ) * 2 ^ (exponent + other) := by
    rw [zpow_add₀ (by norm_num)]
    push_cast
    ring
  rw [value]
  exact roundsTo_roundWithAccuracy (mul_nonneg (Nat.cast_nonneg _) (unit_pos _).le)
    (represents_scaled_exact _ _) fine .positive

/-- The whole part of a quotient has all digits that are needed for rounding it. -/
theorem fine_of_divCore {target : ℤ} {shift : ℕ}
    (positive : 0 < first) (positiveOther : 0 < second)
    (bound : target ≤ Format.binary64.targetExponent
      (totalExponent first exponent - totalExponent second other))
    (shifted : (shift : ℤ) = exponent - other - target) :
    target ≤ Format.binary64.targetExponent
      (totalExponent (first * 2 ^ shift / second) target) := by
  rw [targetExponent_eq, totalExponent] at *
  rw [totalExponent] at bound
  by_cases least : target ≤ -1074
  · exact least.trans (le_max_right _ _)
  · have digits : second.log2 + 53 ≤ first.log2 + shift := by omega
    have enough : 2 ^ 52 ≤ first * 2 ^ shift / second := by
      rw [Nat.le_div_iff_mul_le positiveOther]
      calc 2 ^ 52 * second
          ≤ 2 ^ 52 * 2 ^ (second.log2 + 1) := Nat.mul_le_mul_left _ Nat.lt_log2_self.le
        _ = 2 ^ (second.log2 + 53) := by rw [← Nat.pow_add]; congr 1; omega
        _ ≤ 2 ^ (first.log2 + shift) := Nat.pow_le_pow_right (by decide) digits
        _ = 2 ^ first.log2 * 2 ^ shift := Nat.pow_add _ _ _
        _ ≤ first * 2 ^ shift := Nat.mul_le_mul_right _ (Nat.log2_self_le positive.ne')
    have log := (Nat.le_log2 (by omega)).mpr enough
    omega

theorem represents_quotient
    (positiveOther : 0 < second) {target : ℤ} {shift : ℕ}
    (shifted : (shift : ℤ) = exponent - other - target) :
    Represents
      (.ofMantissaAndAccuracy (first * 2 ^ shift / second)
        (accuracyOfFraction (first * 2 ^ shift % second) second))
      (first * (2 : ℚ) ^ exponent / (second * 2 ^ other) / 2 ^ target) := by
  have divided := represents_fraction (first * 2 ^ shift / second)
    (Nat.mod_lt (first * 2 ^ shift) positiveOther)
  have nonzero : (second : ℚ) ≠ 0 := by exact_mod_cast positiveOther.ne'
  have parts : ((first * 2 ^ shift : ℕ) : ℚ) =
      second * (first * 2 ^ shift / second : ℕ) + (first * 2 ^ shift % second : ℕ) := by
    exact_mod_cast (Nat.div_add_mod _ _).symm
  have exponents : (2 : ℚ) ^ exponent = 2 ^ shift * 2 ^ other * 2 ^ target := by
    rw [← zpow_natCast, ← zpow_add₀ (by norm_num), ← zpow_add₀ (by norm_num)]
    congr 1
    omega
  have value : first * (2 : ℚ) ^ exponent / (second * 2 ^ other) / 2 ^ target =
      (first * 2 ^ shift / second : ℕ) + (first * 2 ^ shift % second : ℕ) / second := by
    have unit := unit_pos other
    have targetUnit := unit_pos target
    rw [exponents]
    field_simp
    push_cast at parts
    linarith
  rw [value]
  exact divided

theorem roundsTo_div (positive : 0 < first) (positiveOther : 0 < second) :
    RoundsTo false (first * (2 : ℚ) ^ exponent / (second * 2 ^ other))
      (Binary.ofFloat (.ofModel (.pack (UnpackedFloat.div Format.binary64
        (.finite .positive first exponent positive)
        (.finite .positive second other positiveOther))))) := by
  have nonneg : 0 ≤ first * (2 : ℚ) ^ exponent / (second * 2 ^ other) := by
    have := unit_pos exponent
    have := unit_pos other
    positivity
  simp only [UnpackedFloat.div, divCore, Nat.shiftLeft_eq]
  generalize targeted : min (exponent - other) (Format.binary64.targetExponent
    (totalExponent first exponent - totalExponent second other)) = target
  have shifted : ((exponent - other - target).toNat : ℤ) = exponent - other - target := by omega
  refine roundsTo_roundWithAccuracy nonneg (represents_quotient positiveOther shifted) ?_ .positive
  exact fine_of_divCore positive positiveOther (targeted ▸ min_le_right _ _) shifted

/-! ### Scaling by powers of ten -/

theorem canonical_zero : RoundingInterval.Canonical 0 (-1074) := by decide

theorem roundsTo_zero : RoundsTo false 0 (.finite false 0 (-1074)) :=
  .finite (isNearest_of_holds le_rfl canonical_zero holds_zero)

/-- The digits are shifted to the left first, so that their product has enough of them. -/
theorem roundsTo_shifted_mul {digits factor : ℕ} (positive : 0 < digits)
    (shifted : 0 < digits <<< Format.binary64.mantissaBits) (factorPositive : 0 < factor) :
    RoundsTo false (digits * factor)
      (Binary.ofFloat (.ofModel (.pack (UnpackedFloat.mul Format.binary64
        (.finite .positive (digits <<< Format.binary64.mantissaBits)
          (-Format.binary64.mantissaBits) shifted)
        (.finite .positive factor 0 factorPositive))))) := by
  have precision : Format.binary64.mantissaBits = 53 := rfl
  have value : (digits : ℚ) * factor =
      (digits <<< Format.binary64.mantissaBits : ℕ) *
        (2 : ℚ) ^ (-(Format.binary64.mantissaBits : ℤ)) * (factor * 2 ^ (0 : ℤ)) := by
    rw [Nat.shiftLeft_eq, zpow_neg, zpow_natCast, zpow_zero]
    push_cast
    field_simp
  have nonzero : digits <<< Format.binary64.mantissaBits * factor ≠ 0 :=
    (Nat.mul_pos shifted factorPositive).ne'
  have log : 53 ≤ (digits <<< Format.binary64.mantissaBits * factor).log2 := by
    rw [Nat.le_log2 nonzero, Nat.shiftLeft_eq, precision]
    exact (Nat.le_mul_of_pos_left _ positive).trans (Nat.le_mul_of_pos_right _ factorPositive)
  rw [value]
  refine roundsTo_mul shifted factorPositive ?_
  rw [targetExponent_eq, totalExponent]
  omega

theorem roundsTo_scaled {digits : ℕ} {scale : ℤ} (positive : 0 < digits)
    (low : -2048 - (digits.log2 : ℤ) ≤ scale) (high : scale ≤ 2048) :
    RoundsTo false (digits * (10 : ℚ) ^ scale)
      (Binary.ofFloat (.ofModel (.ofScientific digits scale))) := by
  have range : (2 ^ Format.binary64.exponentBits : ℤ) = 2048 := rfl
  change RoundsTo _ _ (Binary.ofFloat (.ofModel (.pack (UnpackedFloat.ofScientific _ _ _))))
  rw [UnpackedFloat.ofScientific, dif_neg positive.ne', range, if_neg (by omega),
    if_neg (by omega)]
  split
  · have value : (10 : ℚ) ^ scale = (10 ^ scale.toNat : ℕ) := by
      rw [Nat.cast_pow, Nat.cast_ofNat, ← zpow_natCast, Int.toNat_of_nonneg ‹_›]
    rw [value]
    exact roundsTo_shifted_mul positive _ _
  · have value : digits * (10 : ℚ) ^ scale =
        digits * (2 : ℚ) ^ (0 : ℤ) / ((10 ^ (-scale).toNat : ℕ) * 2 ^ (0 : ℤ)) := by
      have opposite : (((-scale).toNat : ℕ) : ℤ) = -scale := Int.toNat_of_nonneg (by omega)
      rw [Nat.cast_pow, Nat.cast_ofNat, ← zpow_natCast, opposite, zpow_neg, zpow_zero]
      simp
    rw [value]
    exact roundsTo_div positive _

/-! ### Numbers that are held in full -/

/-- A number is a positive double with a full significand. -/
inductive HoldsFully (x : Float) : ℚ → Prop where
  | intro {significand : ℕ} {exponent : ℤ} (positive : 0 < significand)
      (unpacked : x.toModel.unpack = .finite .positive significand exponent positive)
      (full : 2 ^ 52 ≤ significand) : HoldsFully x (significand * 2 ^ exponent)

theorem holdsFully_of_parts {x : Float} {significand : ℕ} (full : 2 ^ 52 ≤ significand)
    (parts : Binary.ofFloat x = .finite false significand exponent) :
    HoldsFully x (significand * 2 ^ exponent) := by
  have positive : 0 < significand := (Nat.two_pow_pos 52).trans_le full
  refine .intro positive (ofUnpacked_injective ?_) full
  rw [← ofFloat_eq, parts]
  rfl

theorem roundsTo_mul_of_full {x y : Float} {left right : ℚ}
    (holdsLeft : HoldsFully x left) (holdsRight : HoldsFully y right) :
    RoundsTo false (left * right) (Binary.ofFloat (x * y)) := by
  have product : x * y = .ofModel (.pack (UnpackedFloat.mul Format.binary64
    x.toModel.unpack y.toModel.unpack)) := rfl
  obtain ⟨positive, unpacked, full⟩ := holdsLeft
  obtain ⟨positiveOther, unpackedOther, -⟩ := holdsRight
  have digits := full.trans (Nat.le_mul_of_pos_right _ positiveOther)
  have log := (Nat.le_log2 (Nat.mul_pos positive positiveOther).ne').mpr digits
  rw [product, unpacked, unpackedOther]
  refine roundsTo_mul positive positiveOther ?_
  rw [targetExponent_eq, totalExponent]
  omega

theorem roundsTo_div_of_full {x y : Float} {left right : ℚ}
    (holdsLeft : HoldsFully x left) (holdsRight : HoldsFully y right) :
    RoundsTo false (left / right) (Binary.ofFloat (x / y)) := by
  have quotient : x / y = .ofModel (.pack (UnpackedFloat.div Format.binary64
    x.toModel.unpack y.toModel.unpack)) := rfl
  obtain ⟨positive, unpacked, -⟩ := holdsLeft
  obtain ⟨positiveOther, unpackedOther, -⟩ := holdsRight
  rw [quotient, unpacked, unpackedOther]
  exact roundsTo_div positive positiveOther

theorem ofUInt64_of_small {word : UInt64}
    (positive : 0 < word.toNat) (small : word.toNat < 2 ^ 53) :
    UnpackedFloat.ofUInt64 Format.binary64 word =
      .finite .positive (word.toNat * 2 ^ (52 - word.toNat.log2)) (word.toNat.log2 - 52)
        (by positivity) := by
  have log : word.toNat.log2 ≤ 52 := Nat.le_of_lt_succ ((Nat.log2_lt positive.ne').mpr small)
  have greater : compare (word.toNat : ℤ) 0 = .gt := Int.compare_eq_gt.mpr (by omega)
  have shift : (0 - Format.binary64.targetExponent (totalExponent word.toNat 0)).toNat =
      52 - word.toNat.log2 := by
    rw [targetExponent_eq, totalExponent]
    omega
  have scaled : 0 < word.toNat * 2 ^ (52 - word.toNat.log2) := by positivity
  have fits : Format.binary64.targetExponent
      (totalExponent (word.toNat * 2 ^ (52 - word.toNat.log2)) (word.toNat.log2 - 52)) =
        word.toNat.log2 - 52 := by
    rw [targetExponent_eq, totalExponent, log2_mul_two_pow positive]
    omega
  have exponent : (0 : ℤ) - (52 - word.toNat.log2 : ℕ) = word.toNat.log2 - 52 := by omega
  simp only [UnpackedFloat.ofUInt64, UnpackedFloat.ofNat, UnpackedFloat.ofInt,
    UnpackedFloat.normalize, greater, Int.toNat_natCast, UnpackedFloat.round, decreaseExponent,
    shift, Nat.shiftLeft_eq, exponent]
  exact roundWithAccuracy_eq .positive scaled fits

/-- Whole numbers of at most 53 binary digits are doubles. -/
theorem holdsFully_ofWord {n : ℕ} (positive : 0 < n) (small : n < 2 ^ 53) :
    HoldsFully (ofWord n) n := by
  have word : (UInt64.ofNat n).toNat = n := Nat.mod_eq_of_lt (by omega)
  have log : n.log2 ≤ 52 := Nat.le_of_lt_succ ((Nat.log2_lt positive.ne').mpr small)
  have full : 2 ^ 52 ≤ n * 2 ^ (52 - n.log2) := by
    calc 2 ^ 52
        = 2 ^ n.log2 * 2 ^ (52 - n.log2) := by rw [← Nat.pow_add]; congr 1; omega
      _ ≤ n * 2 ^ (52 - n.log2) := Nat.mul_le_mul_right _ (Nat.log2_self_le positive.ne')
  have fits : n * 2 ^ (52 - n.log2) < 2 ^ 53 := by
    calc n * 2 ^ (52 - n.log2)
        < 2 ^ (n.log2 + 1) * 2 ^ (52 - n.log2) :=
          Nat.mul_lt_mul_of_pos_right Nat.lt_log2_self (Nat.two_pow_pos _)
      _ = 2 ^ 53 := by rw [← Nat.pow_add]; congr 1; omega
  have canonical : RoundingInterval.Canonical (n * 2 ^ (52 - n.log2)) (n.log2 - 52) :=
    ⟨fits, by omega, by omega, fun _ => full⟩
  have parts : Binary.ofFloat (ofWord n) =
      .finite false (n * 2 ^ (52 - n.log2)) (n.log2 - 52) := by
    have converted : ofWord n = .ofModel (.pack (UnpackedFloat.ofUInt64 Format.binary64
      (UInt64.ofNat n))) := rfl
    rw [converted, ofUInt64_of_small (by omega) (by omega)]
    simp only [word]
    exact ofFloat_pack_finite .positive _ canonical
  have value : ((n * 2 ^ (52 - n.log2) : ℕ) : ℚ) * 2 ^ ((n.log2 : ℤ) - 52) = n := by
    have opposite : (n.log2 : ℤ) - 52 = -(52 - n.log2 : ℕ) := by omega
    rw [opposite, zpow_neg, zpow_natCast]
    push_cast
    field_simp
  exact value ▸ holdsFully_of_parts full parts

theorem ofFloat_power : ∀ exponent : Fin 23,
    Binary.ofFloat (Float.exactlyRepresentablePowersOfTen[exponent]) =
      .finite false (10 ^ exponent.val * 2 ^ 52 / 2 ^ (10 ^ exponent.val).log2)
        ((10 ^ exponent.val).log2 - 52) ∧
    2 ^ (10 ^ exponent.val).log2 ∣ 10 ^ exponent.val * 2 ^ 52 := by
  decide

/-- The powers of ten in the table are exact. -/
theorem holdsFully_power (exponent : Fin 23) :
    HoldsFully (Float.exactlyRepresentablePowersOfTen[exponent]) ((10 : ℚ) ^ exponent.val) := by
  obtain ⟨parts, divides⟩ := ofFloat_power exponent
  have nonzero : 10 ^ exponent.val ≠ 0 := (Nat.pow_pos (by decide)).ne'
  have full : 2 ^ 52 ≤ 10 ^ exponent.val * 2 ^ 52 / 2 ^ (10 ^ exponent.val).log2 := by
    rw [Nat.le_div_iff_mul_le (Nat.two_pow_pos _), Nat.mul_comm]
    exact Nat.mul_le_mul_right _ (Nat.log2_self_le nonzero)
  have value : ((10 ^ exponent.val * 2 ^ 52 / 2 ^ (10 ^ exponent.val).log2 : ℕ) : ℚ) *
      2 ^ (((10 ^ exponent.val).log2 : ℤ) - 52) = (10 : ℚ) ^ exponent.val := by
    rw [Nat.cast_div divides (by positivity), zpow_sub₀ (by norm_num), zpow_natCast]
    push_cast
    field_simp
  exact value ▸ holdsFully_of_parts full parts

end Arithmetic

theorem ofScientific_eq_of_small {digits places : ℕ} (negative : Bool)
    (small : digits < 2 ^ 53 ∧ places ≤ 22) :
    Float.ofScientific digits negative places =
      have fits : places < 23 := Nat.lt_succ_of_le small.2
      let power := Float.exactlyRepresentablePowersOfTen[places]
      if negative then ofWord digits / power else ofWord digits * power := by
  rw [Float.ofScientific, dif_pos small]
  rfl

theorem ofScientific_eq_of_large {digits places : ℕ} (negative : Bool)
    (large : ¬(digits < 2 ^ 53 ∧ places ≤ 22)) :
    Float.ofScientific digits negative places =
      .ofModel (.ofScientific digits (if negative then -places else places)) := by
  rw [Float.ofScientific, dif_neg large]
  cases negative with
  | true => rw [if_pos rfl, if_pos rfl, Int.negOfNat_eq]; rfl
  | false => rfl

/-- Digits scaled by a power of ten are read as the double nearest to them. -/
theorem roundsTo_ofScientific {digits : ℕ} {scale : ℤ} (positive : 0 < digits)
    (low : -2048 - (digits.log2 : ℤ) ≤ scale) (high : scale ≤ 2048) :
    RoundsTo false (digits * (10 : ℚ) ^ scale)
      (Binary.ofFloat (Float.ofScientific digits (scale < 0) scale.natAbs)) := by
  by_cases small : digits < 2 ^ 53 ∧ scale.natAbs ≤ 22
  · have held := holdsFully_ofWord positive small.1
    have power := holdsFully_power ⟨scale.natAbs, Nat.lt_succ_of_le small.2⟩
    rw [ofScientific_eq_of_small _ small]
    by_cases negative : scale < 0
    · have value : (10 : ℚ) ^ scale = (10 ^ scale.natAbs)⁻¹ := by
        rw [← zpow_natCast, ← zpow_neg]
        congr 1
        omega
      simp only [negative, decide_true, if_true, value, ← div_eq_mul_inv]
      exact roundsTo_div_of_full held power
    · have value : (10 : ℚ) ^ scale = 10 ^ scale.natAbs := by
        rw [← zpow_natCast]
        congr 1
        omega
      simp only [negative, decide_false, Bool.false_eq_true, if_false, value]
      exact roundsTo_mul_of_full held power
  · have signed : (if decide (scale < 0) = true then -(scale.natAbs : ℤ) else scale.natAbs) =
        scale := by
      simp only [decide_eq_true_eq]
      split <;> omega
    rw [ofScientific_eq_of_large _ small, signed]
    exact roundsTo_scaled positive low high

theorem length_digitsOf_le_iff {n length : ℕ} (positive : 0 < length) :
    (digitsOf n).length ≤ length ↔ n < 10 ^ length :=
  Nat.length_toDigits_le_iff (by decide) positive

theorem digitsOf_bounds {n : ℕ} (positive : 0 < n) :
    10 ^ ((digitsOf n).length - 1) ≤ n ∧ n < 10 ^ (digitsOf n).length := by
  have length : 0 < (digitsOf n).length := List.length_pos_of_ne_nil (digitsOf_ne_nil n)
  refine ⟨?_, (length_digitsOf_le_iff length).mp le_rfl⟩
  by_contra less
  rcases Nat.eq_zero_or_pos ((digitsOf n).length - 1) with zero | shorter
  · rw [zero] at less
    omega
  · have := (length_digitsOf_le_iff shorter).mpr (lt_of_not_ge less)
    omega

namespace Numeral

/-- The number that a numeral stands for, without its sign. -/
def value (numeral : Numeral) : ℚ := numeral.digits * (10 : ℚ) ^ numeral.scale

variable (numeral : Numeral)

theorem value_nonneg : 0 ≤ numeral.value := by
  rw [value]
  positivity

theorem overflow_le_of_long
    (positive : 0 < numeral.digits)
    (long : 310 < numeral.scale + (digitsOf numeral.digits).length) :
    overflow ≤ numeral.value := by
  have length : 0 < (digitsOf numeral.digits).length :=
    List.length_pos_of_ne_nil (digitsOf_ne_nil _)
  have leading : (10 : ℚ) ^ ((digitsOf numeral.digits).length - 1) ≤ numeral.digits := by
    exact_mod_cast (digitsOf_bounds positive).1
  have powers : 2 ^ 1024 ≤ 10 ^ 310 :=
    RoundingInterval.pow_le_pow_of_rate (by decide) (by decide : 2 ^ 93 ≤ 10 ^ 28) (by decide)
      (by decide)
  have limit : overflow ≤ (10 : ℚ) ^ (310 : ℤ) := by
    calc overflow
        ≤ (2 : ℚ) ^ (54 : ℤ) * 2 ^ (970 : ℤ) :=
          mul_le_mul_of_nonneg_right (by norm_num) (unit_pos 970).le
      _ = 2 ^ 1024 := by rw [← zpow_add₀ (by norm_num), ← zpow_natCast]; rfl
      _ ≤ 10 ^ 310 := by exact_mod_cast powers
  calc overflow
      ≤ (10 : ℚ) ^ (310 : ℤ) := limit
    _ ≤ 10 ^ (((digitsOf numeral.digits).length - 1 : ℕ) + numeral.scale) :=
        zpow_le_zpow_right₀ (by norm_num) (by omega)
    _ = 10 ^ ((digitsOf numeral.digits).length - 1) * 10 ^ numeral.scale := by
        rw [zpow_add₀ (by norm_num), zpow_natCast]
    _ ≤ numeral.value := mul_le_mul_of_nonneg_right leading (by positivity)

theorem holds_of_short
    (positive : 0 < numeral.digits)
    (short : numeral.scale + (digitsOf numeral.digits).length < -343) :
    (RoundingInterval.around 0 (-1074)).Holds numeral.value := by
  have trailing : (numeral.digits : ℚ) ≤ 10 ^ (digitsOf numeral.digits).length := by
    exact_mod_cast (digitsOf_bounds positive).2.le
  have powers : 2 ^ 1075 ≤ 10 ^ 343 :=
    RoundingInterval.pow_le_pow_of_rate (by decide) (by decide : 2 ^ 93 ≤ 10 ^ 28) (by decide)
      (by decide)
  have half : (10 : ℚ) ^ (-344 : ℤ) < 2 ^ (-1075 : ℤ) := by
    rw [zpow_neg, zpow_neg, inv_lt_inv₀ (by positivity) (by positivity), zpow_ofNat, zpow_ofNat]
    calc (2 : ℚ) ^ 1075
        ≤ 10 ^ 343 := by exact_mod_cast powers
      _ < 10 ^ 344 := pow_lt_pow_right₀ (by norm_num) (by decide)
  have small : numeral.value < 2 ^ (-1075 : ℤ) := by
    calc numeral.value
        ≤ 10 ^ (digitsOf numeral.digits).length * 10 ^ numeral.scale :=
          mul_le_mul_of_nonneg_right trailing (by positivity)
      _ = 10 ^ ((digitsOf numeral.digits).length + numeral.scale) := by
          rw [zpow_add₀ (by norm_num), zpow_natCast]
      _ ≤ 10 ^ (-344 : ℤ) := zpow_le_zpow_right₀ (by norm_num) (by omega)
      _ < 2 ^ (-1075 : ℤ) := half
  have nonneg := numeral.value_nonneg
  have unit := unit_pos (-1074)
  have doubled : (2 : ℚ) ^ (-1074 : ℤ) = 2 ^ (-1075 : ℤ) * 2 := zpow_add_one₀ (by norm_num) (-1075)
  rw [holds_around_iff nonneg]
  refine ⟨⟨?_, by linarith⟩, fun _ => rfl⟩
  rw [gapBelow, if_neg (by decide), Nat.cast_zero]
  linarith

theorem roundsTo_magnitude : RoundsTo false numeral.value (Binary.ofFloat numeral.magnitude) := by
  simp only [magnitude]
  split
  · rename_i zero
    rw [value, zero, Nat.cast_zero, zero_mul]
    exact roundsTo_zero
  · rename_i nonzero
    have positive : 0 < numeral.digits := Nat.pos_of_ne_zero nonzero
    split
    · exact .infinite (numeral.overflow_le_of_long positive ‹_›)
    · split
      · have nonneg := numeral.value_nonneg
        exact .finite
          (isNearest_of_holds nonneg canonical_zero (numeral.holds_of_short positive ‹_›))
      · have log : numeral.digits < 10 ^ (numeral.digits.log2 + 1) :=
          Nat.lt_log2_self.trans_le (Nat.pow_le_pow_left (by decide) _)
        have length := (length_digitsOf_le_iff (Nat.succ_pos _)).mpr log
        rw [digitsOf] at length
        exact roundsTo_ofScientific positive (by omega) (by omega)

/-- A numeral is read as the double nearest to the number that it stands for. -/
theorem roundsTo_toFloat :
    RoundsTo numeral.negative numeral.value (Binary.ofFloat numeral.toFloat) := by
  have rounds := numeral.roundsTo_magnitude
  rw [toFloat]
  cases numeral.negative with
  | false => exact rounds
  | true =>
      simp only [if_true, ofFloat_neg]
      generalize Binary.ofFloat numeral.magnitude = parts at *
      cases rounds with
      | finite nearest => exact .finite nearest
      | infinite large => exact .infinite large

end Numeral

end MapBlocks.Decimal
