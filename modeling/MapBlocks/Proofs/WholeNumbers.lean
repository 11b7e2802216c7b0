import MapBlocks.Map.Number
import MapBlocks.Proofs.DecimalDigits
import MapBlocks.Proofs.FiniteDoubles
import MapBlocks.Proofs.JsonTokens
import MapBlocks.Proofs.TrimmedTexts

/-!
# Whole numbers

A whole number of 64 bits may be rounded to a double as it stands, or be written
out in decimal digits and read again.  Both give the same double: reading scales
the digits by a power of ten that is one, and zeros behind the leading digits of a
number have no part in rounding.
-/

namespace MapBlocks.Decimal

section Rounding

open Float.Model Float.Model.UnpackedFloat

theorem log2_mul_two_pow {n : ℕ} (positive : 0 < n) (zeros : ℕ) :
    (n * 2 ^ zeros).log2 = n.log2 + zeros := by
  induction zeros with
  | zero => rw [Nat.pow_zero, Nat.mul_one, Nat.add_zero]
  | succ zeros induction =>
      have nonzero : n * 2 ^ zeros ≠ 0 := (Nat.mul_pos positive (Nat.two_pow_pos zeros)).ne'
      rw [Nat.pow_succ, ← Nat.mul_assoc, Nat.mul_comm _ 2, Nat.log2_two_mul nonzero, induction,
        Nat.add_assoc]

/-- Zeros are shifted out without a trace. -/
theorem shiftRight_zeros (n zeros count : ℕ) :
    ExtendedMantissa.ofMantissaAndAccuracy (n * 2 ^ zeros) .exact >>> (zeros + count) =
      ExtendedMantissa.ofMantissaAndAccuracy n .exact >>> count := by
  change (zeros + count).repeat ExtendedMantissa.shiftRightOne _ =
    count.repeat ExtendedMantissa.shiftRightOne _
  induction count with
  | zero =>
      induction zeros generalizing n with
      | zero => rw [Nat.pow_zero, Nat.mul_one]
      | succ zeros induction =>
          have halved := induction (n * 2)
          rw [Nat.mul_assoc, ← Nat.pow_succ'] at halved
          change ExtendedMantissa.shiftRightOne
            ((zeros + 0).repeat ExtendedMantissa.shiftRightOne _) = _
          rw [halved]
          simp [Nat.repeat, ExtendedMantissa.ofMantissaAndAccuracy, ExtendedMantissa.shiftRightOne]
  | succ count induction => exact congrArg ExtendedMantissa.shiftRightOne induction

/-- Zeros behind a number have no part in rounding it. -/
theorem roundWithAccuracy_zeros
    (sign : Sign) {significand : ℕ} {exponent : ℤ} (positive : 0 < significand)
    (coarse : exponent ≤
      Format.binary64.targetExponent (totalExponent significand exponent)) (zeros : ℕ) :
    roundWithAccuracy Format.binary64 sign (significand * 2 ^ zeros) (exponent - zeros) .exact =
      roundWithAccuracy Format.binary64 sign significand exponent .exact := by
  have shifted :
      shiftToTargetExponent Format.binary64 (significand * 2 ^ zeros) (exponent - zeros) .exact =
        shiftToTargetExponent Format.binary64 significand exponent .exact := by
    have total : totalExponent (significand * 2 ^ zeros) (exponent - zeros) =
        totalExponent significand exponent := by
      simp only [totalExponent, log2_mul_two_pow positive]
      omega
    simp only [shiftToTargetExponent, total]
    generalize Format.binary64.targetExponent (totalExponent significand exponent) = target at *
    obtain ⟨count, rfl⟩ : ∃ count : ℕ, target = exponent + count :=
      ⟨(target - exponent).toNat, by omega⟩
    have counts : (exponent + count - (exponent - zeros)).toNat = zeros + count ∧
        (exponent + count - exponent).toNat = count := by omega
    simp only [shiftToExponent, counts, shiftRight_zeros, Prod.mk.injEq, true_and]
    omega
  simp only [roundWithAccuracy, shifted]

theorem le_targetExponent_of_large {n : ℕ} (large : 2 ^ 53 ≤ n) :
    0 ≤ Format.binary64.targetExponent (totalExponent n 0) := by
  have log := (Nat.le_log2 (by omega)).mpr large
  have target (total : ℤ) : Format.binary64.targetExponent total = max (total - 53) (-1074) := rfl
  rw [target, totalExponent]
  omega

/-- A number whose exponent is the one it would be rounded to stays as it is. -/
theorem roundWithAccuracy_eq
    (sign : Sign) {significand : ℕ} {exponent : ℤ} (positive : 0 < significand)
    (fits : Format.binary64.targetExponent (totalExponent significand exponent) = exponent) :
    roundWithAccuracy Format.binary64 sign significand exponent .exact =
      .finite sign significand exponent positive := by
  have kept : shiftToTargetExponent Format.binary64 significand exponent .exact =
      (ExtendedMantissa.ofMantissaAndAccuracy significand .exact, exponent) := by
    simp only [shiftToTargetExponent, shiftToExponent, fits, Int.sub_self, Int.toNat_zero,
      Nat.cast_zero, Int.add_zero]
    rfl
  have rounded : (ExtendedMantissa.ofMantissaAndAccuracy significand .exact).roundedMantissa =
      significand := rfl
  have mantissa : (ExtendedMantissa.ofMantissaAndAccuracy significand .exact).mantissa =
      significand := rfl
  simp only [roundWithAccuracy, kept, rounded, mantissa, positive.ne', dite_false]

/-- What a double holds has the exponent that rounding would give it. -/
theorem targetExponent_of_unpack
    {bits : BitVec Format.binary64.numBits} {sign : Sign} {significand : ℕ} {exponent : ℤ}
    {positive : 0 < significand}
    (held : UnpackedFloat.unpack Format.binary64 bits =
      .finite sign significand exponent positive) :
    Format.binary64.targetExponent (totalExponent significand exponent) = exponent := by
  have fraction := toNat_unpackMantissa_lt bits
  have target (total : ℤ) : Format.binary64.targetExponent total = max (total - 53) (-1074) := rfl
  rw [target, totalExponent]
  simp only [UnpackedFloat.unpack] at held
  split at held
  · split at held <;> cases held
  · split at held
    · rename_i least
      split at held
      · cases held
      · simp only [UnpackedFloat.finite.injEq] at held
        obtain ⟨-, rfl, rfl⟩ := held
        have log := (Nat.log2_lt positive.ne').mpr fraction
        have bottom : (((unpackExponent bits).toNat : ℤ) -
            (Format.binary64.exponentBias + Format.binary64.mantissaBitsWithoutImplicit) + 1) =
              -1074 := by
          rw [least]
          rfl
        rw [bottom]
        omega
    · rename_i nonzero
      simp only [UnpackedFloat.finite.injEq] at held
      obtain ⟨-, rfl, rfl⟩ := held
      have log : (2 ^ 52 + (unpackMantissa bits).toNat).log2 + 1 = 53 :=
        log2_of_full (Nat.le_add_right _ _) (Nat.add_lt_add_left fraction _)
      have exponentPositive : (unpackExponent bits).toNat ≠ 0 := fun zero =>
        nonzero (BitVec.eq_of_toNat_eq zero)
      have offset : (Format.binary64.exponentBias +
          Format.binary64.mantissaBitsWithoutImplicit : ℤ) = 1075 := rfl
      rw [toNat_leading_append, offset]
      omega

/-- Multiplying by one changes nothing. -/
theorem float_mul_one (x : Float) : x * 1 = x := by
  have one : (1 : Float).toModel.unpack =
      .finite .positive (2 ^ 52) (-(52 : ℕ)) (Nat.two_pow_pos 52) := rfl
  have signs (sign : Sign) : sign * .positive = sign := by cases sign <;> rfl
  have product : UnpackedFloat.mul Format.binary64 x.toModel.unpack (1 : Float).toModel.unpack =
      x.toModel.unpack := by
    rw [one]
    cases held : x.toModel.unpack with
    | finite sign significand exponent positive =>
        have fits := targetExponent_of_unpack held
        rw [UnpackedFloat.mul, ← Int.sub_eq_add_neg, roundWithAccuracy_zeros _ positive fits.ge,
          roundWithAccuracy_eq _ positive fits, signs]
    | zero sign => rw [UnpackedFloat.mul, signs]
    | infinity sign => rw [UnpackedFloat.mul, signs]
    | notANumber => rfl
  calc x * 1
      = .ofModel (.pack (UnpackedFloat.mul Format.binary64 x.toModel.unpack
          (1 : Float).toModel.unpack)) := rfl
    _ = .ofModel (.pack x.toModel.unpack) := by rw [product]
    _ = x := ofBits_toBits x

/-- A number of more digits than a double has is rounded without being shifted first. -/
theorem round_of_large (sign : Sign) {n : ℕ} (large : 2 ^ 53 ≤ n) :
    UnpackedFloat.round Format.binary64 sign n 0 =
      roundWithAccuracy Format.binary64 sign n 0 .exact := by
  have coarse := le_targetExponent_of_large large
  have unshifted : (0 - Format.binary64.targetExponent (totalExponent n 0)).toNat = 0 := by omega
  simp only [UnpackedFloat.round, decreaseExponent, unshifted, Nat.shiftLeft_zero, Nat.cast_zero,
    Int.sub_zero]

/-- Digits without an exponent are multiplied by a power of ten that is one. -/
theorem ofScientific_of_large {n : ℕ} (large : 2 ^ 53 ≤ n) :
    UnpackedFloat.ofScientific Format.binary64 n 0 =
      roundWithAccuracy Format.binary64 .positive n 0 .exact := by
  have positive : 0 < n := by omega
  have zeros := roundWithAccuracy_zeros .positive positive (le_targetExponent_of_large large) 53
  have range : (2 ^ Format.binary64.exponentBits : ℤ) = 2048 := rfl
  rw [UnpackedFloat.ofScientific, dif_neg positive.ne', range, if_neg (by decide),
    if_neg (by omega), if_pos le_rfl]
  simp only [UnpackedFloat.mul, Nat.shiftLeft_eq, Int.toNat_zero, Nat.pow_zero, Nat.mul_one,
    Int.add_zero]
  exact zeros

theorem ofUInt64_of_large {word : UInt64} (large : 2 ^ 53 ≤ word.toNat) :
    UnpackedFloat.ofUInt64 Format.binary64 word =
      roundWithAccuracy Format.binary64 .positive word.toNat 0 .exact := by
  have greater : compare (word.toNat : ℤ) 0 = .gt := Int.compare_eq_gt.mpr (by omega)
  simp only [UnpackedFloat.ofUInt64, UnpackedFloat.ofNat, UnpackedFloat.ofInt,
    UnpackedFloat.normalize, greater, Int.toNat_natCast, round_of_large _ large]

end Rounding

/-- The double nearest to a number of 64 bits is the one that its decimal digits read as. -/
theorem ofScientific_eq_ofWord {n : ℕ} (fits : n < 2 ^ 64) :
    Float.ofScientific n false 0 = ofWord n := by
  have word : (UInt64.ofNat n).toNat = n := Nat.mod_eq_of_lt fits
  by_cases small : n < 2 ^ 53
  · rw [Float.ofScientific, dif_pos ⟨small, by decide⟩]
    exact float_mul_one (ofWord n)
  · have large : 2 ^ 53 ≤ (UInt64.ofNat n).toNat := by omega
    have converted := ofUInt64_of_large large
    rw [word] at converted
    rw [Float.ofScientific, dif_neg fun both => small both.1]
    exact congrArg (fun number => Float.ofModel (.pack number))
      ((ofScientific_of_large (by omega)).trans converted.symm)

/-- The digits of a whole number, after a minus sign if it is negative. -/
def signed (negative : Bool) (digits : List Char) : List Char :=
  if negative then '-' :: digits else digits

namespace Numeral

theorem magnitude_digitsOf {n : ℕ} (fits : n < 2 ^ 64) (negative : Bool) :
    magnitude ⟨negative, digitsOf n, [], 0⟩ = ofWord n := by
  have value : digits ⟨negative, digitsOf n, [], 0⟩ = n := by
    rw [digits, List.append_nil, valueOf_digitsOf]
  have scaleZero : scale ⟨negative, digitsOf n, [], 0⟩ = 0 := rfl
  have short : (Nat.toDigits 10 n).length ≤ 20 :=
    (Nat.length_toDigits_le_iff (by decide) (by decide)).mpr (by omega)
  simp only [magnitude, value, scaleZero]
  split
  · rename_i zero
    rw [zero]
    rfl
  · rw [if_neg (by omega), if_neg (by omega)]
    exact ofScientific_eq_ofWord fits

theorem parse?_signed
    {digits : List Char} (nonempty : digits ≠ [])
    (all : ∀ c ∈ digits, isDigitOf 10 c = true) (negative : Bool) :
    parse? (signed negative digits) = some ⟨negative, digits, [], 0⟩ := by
  have sign : takeSign (signed negative digits) = (negative, digits) := by
    cases negative with
    | true => rfl
    | false =>
        obtain ⟨first, rest, rfl⟩ := List.exists_cons_of_ne_nil nonempty
        have digit := all first List.mem_cons_self
        apply Json.takeSign_of_ne
        · rintro rfl
          cases digit
        · rintro rfl
          cases digit
  have whole : digits.takeWhile (isDigitOf 10) = digits := List.takeWhile_eq_self_iff.mpr all
  have rest : digits.dropWhile (isDigitOf 10) = [] := List.dropWhile_eq_nil_iff.mpr all
  simp only [parse?, sign, whole, rest, exponent?, Option.map_some]
  rw [if_neg]
  simp [nonempty]

end Numeral

/-- A whole number of 64 bits, written out, reads as the double nearest to it. -/
theorem float?_signed {value : ℤ} (fits : value.natAbs < 2 ^ 64) :
    float? (signed (value < 0) (digitsOf value.natAbs)) = some (ofInt value) := by
  have digits := fun c => isDigitOf_of_mem_digitsOf (n := value.natAbs) (c := c)
  rw [float?, Numeral.parse?_signed (digitsOf_ne_nil _) (fun c => digits c)]
  simp only [Numeral.toFloat, Numeral.magnitude_digitsOf fits, ofInt, decide_eq_true_eq]

end MapBlocks.Decimal

namespace MapBlocks.Map

open Decimal (digitsOf signed)

theorem isBlank_of_mem_signed {negative : Bool} {n : ℕ} {c : Char}
    (member : c ∈ signed negative (digitsOf n)) : Text.isBlank c = false := by
  have code : c = '-' ∨ 48 ≤ c.toNat ∧ c.toNat ≤ 57 := by
    cases negative with
    | true =>
        exact (List.mem_cons.mp member).imp_right Decimal.code_of_mem_digitsOf
    | false => exact .inr (Decimal.code_of_mem_digitsOf member)
  rcases code with rfl | code
  · rfl
  · rw [← Bool.not_eq_true]
    simp only [Text.isBlank, Bool.or_eq_true, Bool.and_eq_true, decide_eq_true_eq, beq_iff_eq]
    omega

/-- A radix is written with a letter. -/
theorem radixNumber?_signed (negative : Bool) (n : ℕ) :
    radixNumber? (signed negative (digitsOf n)) = none := by
  unfold radixNumber?
  split
  · rename_i letter text spelled
    have member : letter ∈ digitsOf n := by
      cases negative with
      | true => cases spelled
      | false =>
          rw [signed, if_neg Bool.false_ne_true] at spelled
          rw [spelled]
          exact List.mem_cons_of_mem _ List.mem_cons_self
    have code := Decimal.code_of_mem_digitsOf member
    have none : radix? letter = none := by
      unfold radix?
      split
      case h_7 => rfl
      all_goals simp at code
    rw [none]
    rfl
  · rfl

/-- The text of a whole number of 64 bits reads as the double nearest to it. -/
theorem parseNumber?_of_int
    {value : ℤ} (fits : value.natAbs < 2 ^ 64) {text : String}
    (shown : (Yaml.Value.int value).scalarText? = some text) :
    parseNumber? text = some (Decimal.ofInt value) := by
  have spelled : text.toList = signed (value < 0) (digitsOf value.natAbs) := by
    cases shown
    rw [String.toList_ofList, signed]
    simp only [decide_eq_true_eq]
    rfl
  have trimmed : Text.trim text.toList = signed (value < 0) (digitsOf value.natAbs) := by
    rw [spelled]
    exact Text.trim_of_isTrimmed (Text.isTrimmed_of_forall fun c => isBlank_of_mem_signed)
  simp only [parseNumber?, trimmed, radixNumber?_signed, Decimal.float?_signed fits]
  rw [Option.filter_some, Decimal.isFinite_ofInt]
  rfl

end MapBlocks.Map
