import MapBlocks.Decimal.Numeral
import MapBlocks.Proofs.DoubleBits

/-!
# Finite doubles

A double stays finite when it is negated, and every whole number of 64 bits rounds
to a finite double: rounding raises its exponent by a few hundred at most, which
is far below the exponents that stand for infinity.
-/

namespace MapBlocks.Decimal

section Packing

open Float.Model Float.Model.UnpackedFloat

/-- A number with an exponent that a double has room for. -/
inductive Packable : UnpackedFloat → Prop where
  | zero (sign : Sign) : Packable (.zero sign)
  | finite {sign : Sign} {significand : ℕ} {exponent : ℤ} {positive : 0 < significand} :
      exponent ≤ 971 → Packable (.finite sign significand exponent positive)

theorem isFinite_unpack
    {bits : BitVec Format.binary64.numBits} (ordinary : unpackExponent bits ≠ -1#_) :
    (UnpackedFloat.unpack Format.binary64 bits).isFinite = true := by
  rw [UnpackedFloat.unpack, if_neg ordinary]
  split
  · split <;> rfl
  · rfl

theorem isFinite_unpack_pack {number : UnpackedFloat} (packable : Packable number) :
    (UnpackedFloat.unpack Format.binary64
      (UnpackedFloat.pack Format.binary64 number)).isFinite = true := by
  apply isFinite_unpack
  cases packable with
  | zero sign =>
      rw [UnpackedFloat.pack, packedZero, unpackExponent_packComponents]
      decide
  | @finite sign significand exponent positive fits =>
      have room : ¬2 ^ Format.binary64.exponentBits ≤
          (exponent + Format.binary64.exponentBias +
            Format.binary64.mantissaBitsWithoutImplicit).toNat + 1 := by
        change ¬2048 ≤ (exponent + 1023 + 52).toNat + 1
        omega
      rw [UnpackedFloat.pack, if_neg room]
      split
      · rw [unpackExponent_packComponents]
        intro top
        have exponents := congrArg BitVec.toNat top
        change (exponent + 1023 + 52).toNat % 2048 = 2047 at exponents
        omega
      · rw [unpackExponent_packComponents]
        decide

/-- What a finite double holds has room in a double. -/
theorem packable_unpack
    {bits : BitVec Format.binary64.numBits}
    (finite : (UnpackedFloat.unpack Format.binary64 bits).isFinite = true) :
    Packable (UnpackedFloat.unpack Format.binary64 bits) := by
  have width : (unpackExponent bits).toNat < 2048 := (unpackExponent bits).isLt
  rw [UnpackedFloat.unpack] at finite ⊢
  split at finite
  · split at finite <;> cases finite
  · rename_i ordinary
    have top : (unpackExponent bits).toNat ≠ 2047 := fun same =>
      ordinary (BitVec.eq_of_toNat_eq same)
    rw [if_neg ordinary]
    split
    · rename_i least
      split
      · exact .zero _
      · apply Packable.finite
        rw [least]
        decide
    · apply Packable.finite
      change ((unpackExponent bits).toNat : ℤ) - (1023 + 52) ≤ 971
      omega

theorem packable_neg {number : UnpackedFloat} (packable : Packable number) :
    Packable number.neg := by
  cases packable with
  | zero sign => exact .zero _
  | finite fits => exact .finite fits

theorem mantissa_shiftRight_le (extended : ExtendedMantissa) (count : ℕ) :
    (extended >>> count).mantissa ≤ extended.mantissa := by
  change (count.repeat ExtendedMantissa.shiftRightOne extended).mantissa ≤ extended.mantissa
  induction count with
  | zero => exact le_rfl
  | succ count induction =>
      rw [Nat.repeat]
      exact (Nat.div_le_self _ 2).trans induction

theorem roundedMantissa_le (extended : ExtendedMantissa) :
    extended.roundedMantissa ≤ extended.mantissa + 1 := by
  obtain ⟨mantissa, roundBit, stickyBit⟩ := extended
  cases roundBit <;> cases stickyBit <;>
    simp only [ExtendedMantissa.roundedMantissa, ExtendedMantissa.accuracy,
      Accuracy.roundToNearestEven] <;>
    omega

/-- Shifting a number of few digits does not raise its exponent beyond their count. -/
theorem shiftToTargetExponent_le
    {significand digits : ℕ} (small : significand < 2 ^ digits) (exponent : ℤ) :
    (shiftToTargetExponent Format.binary64 significand exponent .exact).1.mantissa ≤ significand ∧
      (shiftToTargetExponent Format.binary64 significand exponent .exact).2 ≤
        max exponent (max (digits + exponent) (-1074)) := by
  have log : significand.log2 ≤ digits := by
    rcases Nat.eq_zero_or_pos significand with rfl | positive
    · exact Nat.zero_le _
    · exact ((Nat.log2_lt (by omega)).mpr small).le
  refine ⟨mantissa_shiftRight_le _ _, ?_⟩
  simp only [shiftToTargetExponent, shiftToExponent, Format.targetExponent, totalExponent,
    Format.mantissaBits, Format.minExponent]
  omega

theorem packable_roundWithAccuracy
    (sign : Sign) {significand : ℕ} {exponent : ℤ} (small : significand < 2 ^ 116)
    (low : exponent ≤ 0) :
    Packable (roundWithAccuracy Format.binary64 sign significand exponent .exact) := by
  obtain ⟨first, firstExponent⟩ := shiftToTargetExponent_le small exponent
  have rounded := roundedMantissa_le
    (shiftToTargetExponent Format.binary64 significand exponent .exact).1
  -- Rounding up may need one more digit, for which the number is shifted again.
  have wider : (shiftToTargetExponent Format.binary64 significand exponent .exact).1.roundedMantissa
      < 2 ^ 117 := by omega
  obtain ⟨-, secondExponent⟩ := shiftToTargetExponent_le wider
    (shiftToTargetExponent Format.binary64 significand exponent .exact).2
  simp only [roundWithAccuracy]
  split
  · exact .zero _
  · apply Packable.finite
    omega

theorem packable_round
    (sign : Sign) {significand : ℕ} (small : significand < 2 ^ 64) :
    Packable (UnpackedFloat.round Format.binary64 sign significand 0) := by
  rw [UnpackedFloat.round, decreaseExponent]
  apply packable_roundWithAccuracy
  · -- The number is shifted to the left by less than 53 digits.
    have fine : (0 - Format.binary64.targetExponent (totalExponent significand 0)).toNat ≤ 52 := by
      simp only [Format.targetExponent, totalExponent, Format.mantissaBits, Format.minExponent]
      omega
    rw [Nat.shiftLeft_eq]
    calc significand * 2 ^ _
        ≤ significand * 2 ^ 52 := Nat.mul_le_mul_left _ (Nat.pow_le_pow_right (by decide) fine)
      _ < 2 ^ 116 := by omega
  · omega

end Packing

theorem isFinite_neg {x : Float} (finite : x.isFinite = true) : (-x).isFinite = true :=
  isFinite_unpack_pack (packable_neg (packable_unpack finite))

theorem isFinite_ofWord (value : ℕ) : (ofWord value).isFinite = true := by
  have small : (UInt64.ofNat value).toNat < 2 ^ 64 := (UInt64.ofNat value).toNat_lt
  refine isFinite_unpack_pack ?_
  simp only [Float.Model.UnpackedFloat.ofUInt64, Float.Model.UnpackedFloat.ofNat,
    Float.Model.UnpackedFloat.ofInt, Float.Model.UnpackedFloat.normalize]
  split
  · exact packable_round _ (by omega)
  · exact .zero _
  · exact packable_round _ (by omega)

theorem isFinite_ofInt (value : ℤ) : (ofInt value).isFinite = true := by
  rw [ofInt]
  split
  · exact isFinite_neg (isFinite_ofWord _)
  · exact isFinite_ofWord _

end MapBlocks.Decimal
