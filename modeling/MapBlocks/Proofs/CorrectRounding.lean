import MapBlocks.Proofs.PackedDoubles
import MapBlocks.Proofs.RoundingToNearest

/-!
# Arithmetic rounds correctly

Shifting a significand to the right keeps what is shifted out in two residual bits.
They are all that rounding to the nearest double needs to know, so that products and
quotients round to the double nearest to them.
-/

namespace MapBlocks.Decimal

open Float.Model Float.Model.UnpackedFloat RoundingInterval

/-! ### Residual bits -/

/-- A number is a significand with its round bit and a rest below it, of which the sticky bit says
whether there is one. -/
def Represents (extended : ExtendedMantissa) (number : ℚ) : Prop :=
  ∃ rest : ℚ, number = extended.mantissa + (if extended.roundBit then 1 / 2 else 0) + rest ∧
    0 ≤ rest ∧ rest < 1 / 2 ∧ (extended.stickyBit = false ↔ rest = 0)

/-- A whole number and a fraction below one. -/
theorem represents_fraction (floor : ℕ) {numerator denominator : ℕ}
    (proper : numerator < denominator) :
    Represents (.ofMantissaAndAccuracy floor (accuracyOfFraction numerator denominator))
      (floor + numerator / denominator) := by
  have positive : (0 : ℚ) < denominator := by exact_mod_cast Nat.zero_lt_of_lt proper
  have below : (numerator : ℚ) / denominator < 1 := by
    rw [div_lt_one positive]
    exact_mod_cast proper
  have nonneg : (0 : ℚ) ≤ numerator / denominator := by positivity
  have product : (numerator : ℚ) / denominator * denominator = numerator :=
    div_mul_cancel₀ _ positive.ne'
  rw [accuracyOfFraction]
  split
  · rename_i zero
    exact ⟨0, by simp [zero, ExtendedMantissa.ofMantissaAndAccuracy], le_rfl, by norm_num,
      by simp [ExtendedMantissa.ofMantissaAndAccuracy]⟩
  · rename_i nonzero
    have some : (numerator : ℚ) / denominator ≠ 0 :=
      div_ne_zero (by exact_mod_cast nonzero) positive.ne'
    generalize (numerator : ℚ) / denominator = fraction at *
    cases order : compare (2 * numerator) denominator with
    | lt =>
        have less : 2 * (numerator : ℚ) < denominator := by
          exact_mod_cast Nat.compare_eq_lt.mp order
        have small : fraction < 1 / 2 := by nlinarith
        exact ⟨fraction, by simp [ExtendedMantissa.ofMantissaAndAccuracy], nonneg, small,
          by simp [ExtendedMantissa.ofMantissaAndAccuracy, some]⟩
    | eq =>
        have same : 2 * (numerator : ℚ) = denominator := by
          exact_mod_cast Nat.compare_eq_eq.mp order
        have middle : fraction = 1 / 2 := by nlinarith
        exact ⟨0, by simp [ExtendedMantissa.ofMantissaAndAccuracy, middle], le_rfl, by norm_num,
          by simp [ExtendedMantissa.ofMantissaAndAccuracy]⟩
    | gt =>
        have greater : (denominator : ℚ) < 2 * numerator := by
          exact_mod_cast Nat.compare_eq_gt.mp order
        have large : 1 / 2 < fraction := by nlinarith
        refine ⟨fraction - 1 / 2, ?_, by linarith, by linarith, ?_⟩
        · simp only [ExtendedMantissa.ofMantissaAndAccuracy, if_true]
          ring
        · simp only [ExtendedMantissa.ofMantissaAndAccuracy, Bool.true_eq_false, false_iff]
          linarith

theorem represents_exact (floor : ℕ) :
    Represents (.ofMantissaAndAccuracy floor .exact) floor :=
  ⟨0, by simp [ExtendedMantissa.ofMantissaAndAccuracy], le_rfl, by norm_num,
    by simp [ExtendedMantissa.ofMantissaAndAccuracy]⟩

/-- Shifting by one place keeps in the residual bits what is lost in the significand. -/
theorem Represents.shiftRightOne {extended : ExtendedMantissa} {number : ℚ}
    (represents : Represents extended number) :
    Represents extended.shiftRightOne (number / 2) := by
  obtain ⟨rest, rfl, nonneg, small, sticky⟩ := represents
  have whole : (extended.mantissa : ℚ) =
      2 * (extended.mantissa / 2 : ℕ) + (extended.mantissa % 2 : ℕ) := by
    exact_mod_cast (Nat.div_add_mod extended.mantissa 2).symm
  have bit : (extended.mantissa % 2 : ℕ) / (2 : ℚ) =
      if extended.shiftRightOne.roundBit then 1 / 2 else 0 := by
    rcases Nat.mod_two_eq_zero_or_one extended.mantissa with even | odd
    · simp [ExtendedMantissa.shiftRightOne, even]
    · simp [ExtendedMantissa.shiftRightOne, odd]
  refine ⟨((if extended.roundBit then 1 / 2 else 0) + rest) / 2, ?_, ?_, ?_, ?_⟩
  · rw [← bit, ExtendedMantissa.shiftRightOne, whole]
    ring
  · split <;> linarith
  · split <;> linarith
  · simp only [ExtendedMantissa.shiftRightOne, Bool.or_eq_false_iff, sticky]
    cases extended.roundBit with
    | false => simp
    | true =>
        simp only [Bool.true_eq_false, false_and, if_true, false_iff]
        linarith

theorem Represents.shiftRight {extended : ExtendedMantissa} {number : ℚ}
    (represents : Represents extended number) (count : ℕ) :
    Represents (extended >>> count) (number / 2 ^ count) := by
  change Represents (count.repeat ExtendedMantissa.shiftRightOne extended) _
  induction count with
  | zero => simpa [Nat.repeat] using represents
  | succ count induction =>
      rw [pow_succ, ← div_div]
      exact induction.shiftRightOne

theorem mantissa_ofMantissaAndAccuracy (floor : ℕ) (accuracy : Accuracy) :
    (ExtendedMantissa.ofMantissaAndAccuracy floor accuracy).mantissa = floor := by
  cases accuracy with
  | exact => rfl
  | inexact order => cases order <;> rfl

theorem Represents.bounds {extended : ExtendedMantissa} {number : ℚ}
    (represents : Represents extended number) :
    (extended.mantissa : ℚ) ≤ number ∧ number < extended.mantissa + 1 := by
  obtain ⟨rest, rfl, nonneg, small, -⟩ := represents
  constructor
  · split <;> linarith
  · split <;> linarith

/-- Rounding goes to the nearest whole number, in the middle between two of them to the even
one. -/
theorem Represents.rounded {extended : ExtendedMantissa} {number : ℚ}
    (represents : Represents extended number) :
    (extended.roundedMantissa : ℚ) - 1 / 2 ≤ number ∧ number ≤ extended.roundedMantissa + 1 / 2 ∧
    (number = extended.roundedMantissa - 1 / 2 ∨ number = extended.roundedMantissa + 1 / 2 →
      extended.roundedMantissa % 2 = 0) := by
  obtain ⟨rest, rfl, nonneg, small, sticky⟩ := represents
  obtain ⟨significand, roundBit, stickyBit⟩ := extended
  cases roundBit with
  | false =>
      have down :
          (ExtendedMantissa.mk significand false stickyBit).roundedMantissa = significand := by
        cases stickyBit <;> rfl
      rw [down]
      simp only [Bool.false_eq_true, if_false]
      refine ⟨by linarith, by linarith, ?_⟩
      rintro (low | high)
      · linarith
      · linarith
  | true =>
      simp only [if_true]
      cases stickyBit with
      | false =>
          have middle : rest = 0 := sticky.mp rfl
          have toEven : (ExtendedMantissa.mk significand true false).roundedMantissa =
              significand + significand % 2 := rfl
          rw [toEven, middle]
          rcases Nat.mod_two_eq_zero_or_one significand with even | odd
          · rw [even]
            push_cast
            refine ⟨by linarith, by linarith, fun _ => by omega⟩
          · rw [odd]
            push_cast
            refine ⟨by linarith, by linarith, fun _ => by omega⟩
      | true =>
          have rests : rest ≠ 0 := by simpa using sticky
          have positive : 0 < rest := lt_of_le_of_ne nonneg rests.symm
          have up : (ExtendedMantissa.mk significand true true).roundedMantissa = significand + 1 :=
            rfl
          rw [up]
          push_cast
          refine ⟨by linarith, by linarith, ?_⟩
          rintro (low | high)
          · linarith
          · linarith

/-! ### Rounding to the format -/

/-- A number lies in the rounding interval of a significand and an exponent which are in the form
in which the bits of a double hold them, but for an exponent that may be too large. -/
structure Rounded (number : ℚ) (significand : ℕ) (exponent : ℤ) : Prop where
  fits : significand < 2 ^ 53
  least : -1074 ≤ exponent
  full : -1074 < exponent → 2 ^ 52 ≤ significand
  holds : (around significand exponent).Holds number

/-- The unpacked number with the given parts. -/
def ofParts (sign : Sign) (significand : ℕ) (exponent : ℤ) : UnpackedFloat :=
  if zero : significand = 0 then .zero sign
  else .finite sign significand exponent (Nat.pos_of_ne_zero zero)

theorem roundWithAccuracy_eq_ofParts
    (sign : Sign) (significand : ℕ) (exponent : ℤ) (accuracy : Accuracy) :
    roundWithAccuracy Format.binary64 sign significand exponent accuracy =
      let first := shiftToTargetExponent Format.binary64 significand exponent accuracy
      let last := shiftToTargetExponent Format.binary64 first.1.roundedMantissa first.2 .exact
      ofParts sign last.1.mantissa last.2 := rfl

section Format

variable {number : ℚ} {significand : ℕ} {exponent : ℤ}

theorem Rounded.overflow_le
    (rounded : Rounded number significand exponent) (nonneg : 0 ≤ number) (large : 971 < exponent) :
    overflow ≤ number := by
  obtain ⟨⟨lower, -⟩, -⟩ := (holds_around_iff nonneg).mp rounded.holds
  have normal : -1074 < exponent := by omega
  have full := rounded.full normal
  have significands : (2 ^ 52 - 1 / 4 : ℚ) ≤ significand - gapBelow significand exponent / 2 := by
    have gap := le_sub_gapBelow normal full
    have cast : (2 ^ 52 : ℚ) ≤ significand := by exact_mod_cast full
    linarith
  have units : (2 : ℚ) ^ (972 : ℤ) ≤ 2 ^ exponent := zpow_le_zpow_right₀ (by norm_num) (by omega)
  have least : overflow = (2 ^ 52 - 1 / 4) * (2 : ℚ) ^ (972 : ℤ) := by
    rw [overflow, show (972 : ℤ) = 970 + 2 from rfl, zpow_add₀ (by norm_num)]
    generalize (2 : ℚ) ^ (970 : ℤ) = unit
    norm_num
    ring
  calc overflow
      = (2 ^ 52 - 1 / 4) * (2 : ℚ) ^ (972 : ℤ) := least
    _ ≤ (significand - gapBelow significand exponent / 2) * 2 ^ exponent :=
        mul_le_mul significands units (unit_pos 972).le (by linarith)
    _ ≤ number := lower

theorem Rounded.roundsTo
    (rounded : Rounded number significand exponent) (nonneg : 0 ≤ number) (sign : Sign) :
    RoundsTo (isNegative sign) number
      (Binary.ofFloat (.ofModel (.pack (ofParts sign significand exponent)))) := by
  by_cases large : 971 < exponent
  · have full := rounded.full (by omega)
    rw [ofParts, dif_neg (by omega), ofFloat_pack_large _ _ large]
    exact .infinite (rounded.overflow_le nonneg large)
  · have canonical : Canonical significand exponent :=
      ⟨rounded.fits, rounded.least, by omega, rounded.full⟩
    have nearest := isNearest_of_holds nonneg canonical rounded.holds
    by_cases zero : significand = 0
    · have bottom : exponent = -1074 := by
        have := rounded.least
        have := rounded.full
        omega
      subst zero bottom
      rw [ofParts, dif_pos rfl, ofFloat_pack_zero]
      exact .finite nearest
    · rw [ofParts, dif_neg zero, ofFloat_pack_finite _ _ canonical]
      exact .finite nearest

theorem targetExponent_eq (total : ℤ) :
    Format.binary64.targetExponent total = max (total - 53) (-1074) := rfl

/-- After rounding the significand may have to be shifted once more. -/
theorem shiftToTargetExponent_rounded {rounded : ℕ} (fits : rounded ≤ 2 ^ 53)
    (least : -1074 ≤ exponent) :
    shiftToTargetExponent Format.binary64 rounded exponent .exact =
      if rounded = 2 ^ 53 then (.ofMantissaAndAccuracy (2 ^ 52) .exact, exponent + 1)
      else (.ofMantissaAndAccuracy rounded .exact, exponent) := by
  split
  · rename_i carried
    have log : (2 ^ 53 : ℕ).log2 = 53 := Nat.log2_two_pow
    have target : Format.binary64.targetExponent (totalExponent (2 ^ 53) exponent) =
        exponent + 1 := by
      rw [targetExponent_eq, totalExponent, log]
      omega
    have once : (exponent + 1 - exponent).toNat = 1 := by omega
    simp only [carried, shiftToTargetExponent, shiftToExponent, target, once]
    rfl
  · rename_i short
    have log : rounded.log2 ≤ 52 := by
      rcases Nat.eq_zero_or_pos rounded with rfl | positive
      · exact Nat.zero_le _
      · have := (Nat.log2_lt positive.ne').mpr (lt_of_le_of_ne fits short)
        omega
    have none : (Format.binary64.targetExponent (totalExponent rounded exponent) -
        exponent).toNat = 0 := by
      rw [targetExponent_eq, totalExponent]
      omega
    simp only [shiftToTargetExponent, shiftToExponent, none, Nat.cast_zero, Int.add_zero]
    rfl

/-- Shifted to its exponent, a number has at most 53 binary digits before the point, and just so
many unless the exponent is the least one. -/
theorem shifted_bounds
    {accuracy : Accuracy} {count : ℕ}
    (represents : Represents (.ofMantissaAndAccuracy significand accuracy) number)
    (target : Format.binary64.targetExponent (totalExponent significand exponent) =
      exponent + count) :
    number / 2 ^ count < 2 ^ 53 ∧ (-1074 < exponent + count → 2 ^ 52 ≤ number / 2 ^ count) := by
  have bounds := represents.bounds
  rw [mantissa_ofMantissaAndAccuracy] at bounds
  rw [targetExponent_eq, totalExponent] at target
  have unit : (0 : ℚ) < 2 ^ count := by positivity
  constructor
  · rw [div_lt_iff₀ unit, ← pow_add]
    have digits : significand + 1 ≤ 2 ^ (53 + count) :=
      Nat.lt_log2_self.trans_le (Nat.pow_le_pow_right (by decide) (by omega))
    calc number
        < significand + 1 := bounds.2
      _ ≤ 2 ^ (53 + count) := by exact_mod_cast digits
  · intro normal
    have log : significand.log2 = 52 + count := by omega
    have positive : significand ≠ 0 := by
      rintro rfl
      rw [Nat.log2_zero] at log
      omega
    rw [le_div_iff₀ unit, ← pow_add]
    have digits : 2 ^ (52 + count) ≤ significand := log ▸ Nat.log2_self_le positive
    calc (2 : ℚ) ^ (52 + count)
        ≤ significand := by exact_mod_cast digits
      _ ≤ number := bounds.1

theorem rounded_of_short
    {quotient : ℚ} (nonneg : 0 ≤ quotient) (least : -1074 ≤ exponent)
    (above : -1074 < exponent → 2 ^ 52 ≤ quotient) (short : significand < 2 ^ 53)
    (lower : (significand : ℚ) - 1 / 2 ≤ quotient) (upper : quotient ≤ significand + 1 / 2)
    (even : quotient = significand - 1 / 2 ∨ quotient = significand + 1 / 2 →
      significand % 2 = 0) :
    Rounded (quotient * 2 ^ exponent) significand exponent := by
  have unit := unit_pos exponent
  have scaled : 0 ≤ quotient * 2 ^ exponent := mul_nonneg nonneg unit.le
  refine ⟨short, least, ?_, (holds_around_iff scaled).mpr ?_⟩
  · intro normal
    have cast : (2 ^ 52 : ℚ) < (significand + 1 : ℕ) := by
      push_cast
      linarith [above normal]
    exact Nat.le_of_lt_succ (by exact_mod_cast cast)
  · rw [mul_le_mul_iff_left₀ unit, mul_le_mul_iff_left₀ unit, mul_left_inj' unit.ne',
      mul_left_inj' unit.ne', gapBelow]
    split
    · rename_i power
      have full := above power.2
      have value : (significand : ℚ) = 2 ^ 52 := by exact_mod_cast power.1
      have powerIsEven : significand % 2 = 0 := by omega
      exact ⟨⟨by linarith, upper⟩, fun _ => powerIsEven⟩
    · exact ⟨⟨lower, upper⟩, even⟩

/-- Rounding up to the next power of two makes the last place twice as large. -/
theorem rounded_of_carried
    {quotient : ℚ} (least : -1074 ≤ exponent)
    (below : quotient < 2 ^ 53) (lower : (2 ^ 53 : ℚ) - 1 / 2 ≤ quotient) :
    Rounded (quotient * 2 ^ exponent) (2 ^ 52) (exponent + 1) := by
  have unit := unit_pos exponent
  have scaled : 0 ≤ quotient * 2 ^ exponent := mul_nonneg (by linarith) unit.le
  refine ⟨by decide, by omega, fun _ => le_rfl, (holds_around_iff scaled).mpr ⟨⟨?_, ?_⟩, ?_⟩⟩
  · rw [gapBelow, if_pos ⟨rfl, by omega⟩, zpow_add_one₀ (by norm_num)]
    push_cast
    nlinarith
  · rw [zpow_add_one₀ (by norm_num)]
    push_cast
    nlinarith
  · exact fun _ => rfl

/-- Rounding gives the parts of the double nearest to the number that it is told of. -/
theorem exists_rounded
    {accuracy : Accuracy} (nonneg : 0 ≤ number)
    (represents :
      Represents (.ofMantissaAndAccuracy significand accuracy) (number / 2 ^ exponent))
    (fine : exponent ≤
      Format.binary64.targetExponent (totalExponent significand exponent)) (sign : Sign) :
    ∃ (result : ℕ) (scale : ℤ), Rounded number result scale ∧
      roundWithAccuracy Format.binary64 sign significand exponent accuracy =
        ofParts sign result scale := by
  obtain ⟨count, target⟩ : ∃ count : ℕ,
      Format.binary64.targetExponent (totalExponent significand exponent) = exponent + count :=
    ⟨(Format.binary64.targetExponent (totalExponent significand exponent) - exponent).toNat,
      by omega⟩
  have least : -1074 ≤ exponent + count := by
    rw [← target, targetExponent_eq]
    exact le_max_right _ _
  obtain ⟨below, above⟩ := shifted_bounds represents target
  obtain ⟨lower, upper, even⟩ := (represents.shiftRight count).rounded
  have places : (exponent + count - exponent).toNat = count := by omega
  have shifted : shiftToTargetExponent Format.binary64 significand exponent accuracy =
      (ExtendedMantissa.ofMantissaAndAccuracy significand accuracy >>> count,
        exponent + count) := by
    simp only [shiftToTargetExponent, shiftToExponent, target, places]
  have scaled : number = number / 2 ^ exponent / 2 ^ count * 2 ^ (exponent + count) := by
    rw [zpow_add₀ (by norm_num), zpow_natCast]
    field_simp
  have nonnegQuotient : 0 ≤ number / 2 ^ exponent / 2 ^ count :=
    div_nonneg (div_nonneg nonneg (unit_pos exponent).le) (by positivity)
  rw [scaled]
  simp only [roundWithAccuracy_eq_ofParts, shifted]
  generalize (ExtendedMantissa.ofMantissaAndAccuracy significand accuracy >>> count).roundedMantissa
    = result at *
  generalize number / 2 ^ exponent / 2 ^ count = quotient at *
  have fits : result ≤ 2 ^ 53 := by
    have cast : (result : ℚ) < (2 ^ 53 + 1 : ℕ) := by
      push_cast
      linarith
    exact Nat.le_of_lt_succ (Nat.cast_lt.mp cast)
  rw [shiftToTargetExponent_rounded fits least]
  by_cases carried : result = 2 ^ 53
  · have value : (result : ℚ) = 2 ^ 53 := by exact_mod_cast carried
    refine ⟨2 ^ 52, exponent + count + 1, rounded_of_carried least below (by linarith), ?_⟩
    rw [if_pos carried]
    rfl
  · have short : result < 2 ^ 53 := lt_of_le_of_ne fits carried
    refine ⟨result, exponent + count,
      rounded_of_short nonnegQuotient least above short lower upper even, ?_⟩
    rw [if_neg carried]
    rfl

theorem roundsTo_roundWithAccuracy
    {accuracy : Accuracy} (nonneg : 0 ≤ number)
    (represents :
      Represents (.ofMantissaAndAccuracy significand accuracy) (number / 2 ^ exponent))
    (fine : exponent ≤
      Format.binary64.targetExponent (totalExponent significand exponent)) (sign : Sign) :
    RoundsTo (isNegative sign) number (Binary.ofFloat (.ofModel (.pack
      (roundWithAccuracy Format.binary64 sign significand exponent accuracy)))) := by
  obtain ⟨result, scale, rounded, parts⟩ := exists_rounded nonneg represents fine sign
  rw [parts]
  exact rounded.roundsTo nonneg sign

end Format

end MapBlocks.Decimal
