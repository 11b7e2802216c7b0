import MapBlocks.Proofs.DefinedNumbers

/-!
# Packed doubles

Arithmetic works on unpacked numbers and packs its results.  What a double is taken
apart to and what it is unpacked to are the same, and packing a number in the form in
which the bits hold it loses nothing.
-/

namespace MapBlocks.Decimal

open Float.Model Float.Model.UnpackedFloat

def isNegative : Sign → Bool
  | .negative => true
  | .positive => false

/-- An unpacked number as a double taken apart. -/
def Binary.ofUnpacked : UnpackedFloat → Binary
  | .notANumber => .nan
  | .infinity sign => .infinite (isNegative sign)
  | .zero sign => .finite (isNegative sign) 0 (-1074)
  | .finite sign significand exponent _ => .finite (isNegative sign) significand exponent

section Bits

variable (bits : BitVec Format.binary64.numBits)

theorem isNegative_unpackSign :
    isNegative (Sign.ofBitVec (unpackSign bits)) = decide (2 ^ 63 ≤ bits.toNat) := by
  have bit : (unpackSign bits).toNat = bits.toNat / 2 ^ 63 % 2 := by
    simp [unpackSign, BitVec.extractLsb_toNat, Nat.shiftRight_eq_div_pow]
  have width : bits.toNat < 2 ^ 64 := bits.isLt
  have zero : unpackSign bits = 0#1 ↔ bits.toNat / 2 ^ 63 % 2 = 0 := by
    rw [← BitVec.toNat_inj, bit]
    rfl
  rw [Sign.ofBitVec]
  split
  · rename_i positive
    rw [zero] at positive
    simp only [isNegative, Bool.false_eq, decide_eq_false_iff_not]
    omega
  · rename_i negative
    rw [zero] at negative
    simp only [isNegative, Bool.true_eq, decide_eq_true_eq]
    omega

theorem ofBits_toNat :
    Binary.ofBits bits.toNat = .ofUnpacked (UnpackedFloat.unpack Format.binary64 bits) := by
  have exponent := toNat_unpackExponent bits
  have fraction := toNat_unpackMantissa bits
  have sign := isNegative_unpackSign bits
  have top : unpackExponent bits = -1#_ ↔ bits.toNat / 2 ^ 52 % 2048 = 2047 := by
    rw [← BitVec.toNat_inj, exponent]
    rfl
  have bottom : unpackExponent bits = 0#_ ↔ bits.toNat / 2 ^ 52 % 2048 = 0 := by
    rw [← BitVec.toNat_inj, exponent]
    rfl
  have empty : unpackMantissa bits = 0#_ ↔ bits.toNat % 2 ^ 52 = 0 := by
    rw [← BitVec.toNat_inj, fraction]
    rfl
  have offset : (Format.binary64.exponentBias +
      Format.binary64.mantissaBitsWithoutImplicit : ℤ) = 1075 := rfl
  simp only [Binary.ofBits, UnpackedFloat.unpack, top, bottom, empty, Nat.pow_eq]
  split
  · split <;> simp only [Binary.ofUnpacked, sign]
  · split
    · rename_i least
      split
      · rename_i zero
        simp only [Binary.ofUnpacked, sign, zero]
      · simp only [Binary.ofUnpacked, sign, fraction, exponent, least, offset]
        rfl
    · rw [Binary.ofUnpacked, sign, toNat_leading_append, fraction, exponent, offset, Nat.add_comm]

end Bits

theorem ofFloat_eq (x : Float) : Binary.ofFloat x = .ofUnpacked x.toModel.unpack :=
  ofBits_toNat x.toModel.toBits.toBitVec

theorem toNat_packComponents
    (sign : Sign) (exponent : BitVec Format.binary64.exponentBits)
    (fraction : BitVec Format.binary64.mantissaBitsWithoutImplicit) :
    (packComponents Format.binary64 sign exponent fraction).toNat =
      (if isNegative sign then 2 ^ 63 else 0) + exponent.toNat * 2 ^ 52 + fraction.toNat := by
  have width : exponent.toNat < 2 ^ 11 := exponent.isLt
  have places : fraction.toNat < 2 ^ 52 := fraction.isLt
  rw [packComponents, BitVec.toNat_append, ← Nat.shiftLeft_add_eq_or_of_lt places,
    BitVec.toNat_append, ← Nat.shiftLeft_add_eq_or_of_lt width, Nat.shiftLeft_eq, Nat.shiftLeft_eq]
  cases sign with
  | negative =>
      simp [isNegative, Sign.toBitVec]
      omega
  | positive => simp [isNegative, Sign.toBitVec]

theorem ofBits_of_parts
    (negative : Bool) {scale fraction : ℕ} (finite : scale < 2047) (places : fraction < 2 ^ 52) :
    Binary.ofBits ((if negative then 2 ^ 63 else 0) + scale * 2 ^ 52 + fraction) =
      if scale = 0 then .finite negative fraction (-1074)
      else .finite negative (fraction + 2 ^ 52) (scale - 1075) := by
  have sign : decide (2 ^ 63 ≤ (if negative then 2 ^ 63 else 0) + scale * 2 ^ 52 + fraction) =
      negative := by
    cases negative <;> simp <;> omega
  have exponent : ((if negative then 2 ^ 63 else 0) + scale * 2 ^ 52 + fraction) / 2 ^ 52 % 2048 =
      scale := by
    split <;> omega
  have low : ((if negative then 2 ^ 63 else 0) + scale * 2 ^ 52 + fraction) % 2 ^ 52 =
      fraction := by
    split <;> omega
  simp only [Binary.ofBits, Nat.pow_eq, sign, exponent, low]
  rw [if_neg finite.ne]

theorem ofFloat_pack (number : UnpackedFloat) :
    Binary.ofFloat (.ofModel (.pack number)) =
      .ofBits (UnpackedFloat.pack Format.binary64 number).toNat := rfl

theorem ofFloat_pack_zero (sign : Sign) :
    Binary.ofFloat (.ofModel (.pack (.zero sign))) = .finite (isNegative sign) 0 (-1074) := by
  cases sign <;> rfl

theorem ofFloat_pack_infinity (sign : Sign) :
    Binary.ofFloat (.ofModel (.pack (.infinity sign))) = .infinite (isNegative sign) := by
  cases sign <;> rfl

/-- Packing a number in the form in which the bits hold it loses nothing. -/
theorem ofFloat_pack_finite
    (sign : Sign) {significand : ℕ} {exponent : ℤ} (positive : 0 < significand)
    (canonical : RoundingInterval.Canonical significand exponent) :
    Binary.ofFloat (.ofModel (.pack (.finite sign significand exponent positive))) =
      .finite (isNegative sign) significand exponent := by
  obtain ⟨fits, least, greatest, full⟩ := canonical
  have biased : (exponent + Format.binary64.exponentBias +
      Format.binary64.mantissaBitsWithoutImplicit).toNat = (exponent + 1075).toNat := by
    change (exponent + 1023 + 52).toNat = _
    omega
  have precision : Format.binary64.mantissaBits = 53 := rfl
  have range : 2 ^ Format.binary64.exponentBits = 2048 := rfl
  have leading : significand.log2 + 1 = 53 ↔ 2 ^ 52 ≤ significand := by
    rw [← Nat.le_log2 positive.ne']
    have := (Nat.log2_lt positive.ne').mpr fits
    omega
  have fraction : (BitVec.ofNat Format.binary64.mantissaBitsWithoutImplicit significand).toNat =
      significand % 2 ^ 52 := rfl
  rw [ofFloat_pack, UnpackedFloat.pack, biased, precision, range, if_neg (by omega)]
  split
  · rename_i normal
    rw [leading] at normal
    have scale : (BitVec.ofNat Format.binary64.exponentBits (exponent + 1075).toNat).toNat =
        (exponent + 1075).toNat := Nat.mod_eq_of_lt (by change _ < 2048; omega)
    have value : significand % 2 ^ 52 + 2 ^ 52 = significand := by omega
    rw [toNat_packComponents, scale, fraction, ofBits_of_parts _ (by omega) (by omega),
      if_neg (by omega), value]
    congr 1
    omega
  · rename_i small
    rw [leading] at small
    have bottom : exponent = -1074 := by
      by_contra above
      exact small (full (by omega))
    have scale : (BitVec.ofNat Format.binary64.exponentBits 0).toNat = 0 := rfl
    have value : significand % 2 ^ 52 = significand := by omega
    rw [toNat_packComponents, scale, fraction, value, ofBits_of_parts _ (by decide) (by omega),
      if_pos rfl, bottom]

/-- A number with too large an exponent becomes infinite. -/
theorem ofFloat_pack_large
    (sign : Sign) {significand : ℕ} {exponent : ℤ} (positive : 0 < significand)
    (large : 971 < exponent) :
    Binary.ofFloat (.ofModel (.pack (.finite sign significand exponent positive))) =
      .infinite (isNegative sign) := by
  have exceeds : 2 ^ Format.binary64.exponentBits ≤
      (exponent + Format.binary64.exponentBias +
        Format.binary64.mantissaBitsWithoutImplicit).toNat + 1 := by
    change 2048 ≤ (exponent + 1023 + 52).toNat + 1
    omega
  have overflowing :
      UnpackedFloat.pack Format.binary64 (.finite sign significand exponent positive) =
        packedInfinity Format.binary64 sign := by
    rw [UnpackedFloat.pack, if_pos exceeds]
  rw [← ofFloat_pack_infinity, ofFloat_pack, ofFloat_pack, overflowing]
  rfl

/-! ### Unpacked doubles -/

theorem ofUnpacked_injective {first second : UnpackedFloat}
    (same : Binary.ofUnpacked first = .ofUnpacked second) : first = second := by
  have signs {a b : Sign} (equal : isNegative a = isNegative b) : a = b := by
    cases a <;> cases b <;> simp_all [isNegative]
  cases first <;> cases second <;> simp only [Binary.ofUnpacked, reduceCtorEq] at same
  case infinity.infinity => rw [signs (Binary.infinite.inj same)]
  case notANumber.notANumber => rfl
  case zero.zero => rw [signs (Binary.finite.inj same).1]
  case zero.finite => exact absurd (Binary.finite.inj same).2.1 (Nat.ne_of_lt ‹_›)
  case finite.zero => exact absurd (Binary.finite.inj same).2.1 (Nat.ne_of_gt ‹_›)
  case finite.finite =>
    obtain ⟨sign, rfl, rfl⟩ := Binary.finite.inj same
    rw [signs sign]

theorem isFinite_of_parts {x : Float} {negative : Bool} {significand : ℕ} {exponent : ℤ}
    (parts : Binary.ofFloat x = .finite negative significand exponent) : x.isFinite = true := by
  change x.toModel.unpack.isFinite = true
  rw [ofFloat_eq] at parts
  cases held : x.toModel.unpack with
  | zero => rfl
  | finite => rfl
  | notANumber => rw [held] at parts; cases parts
  | infinity => rw [held] at parts; cases parts

theorem canonical_of_unpack
    {x : Float} {sign : Sign} {significand : ℕ} {exponent : ℤ} {positive : 0 < significand}
    (held : x.toModel.unpack = .finite sign significand exponent positive) :
    RoundingInterval.Canonical significand exponent := by
  have finite : x.isFinite = true := by
    change x.toModel.unpack.isFinite = true
    rw [held]
    rfl
  obtain ⟨_, _, _, parts, canonical, -⟩ := parts_of_isFinite finite
  rw [ofFloat_eq, held] at parts
  obtain ⟨-, rfl, rfl⟩ := Binary.finite.inj parts
  exact canonical

/-- A double taken apart, with the other sign. -/
def Binary.negate : Binary → Binary
  | .nan => .nan
  | .infinite negative => .infinite !negative
  | .finite negative significand exponent => .finite (!negative) significand exponent

theorem ofFloat_neg (x : Float) : Binary.ofFloat (-x) = (Binary.ofFloat x).negate := by
  have signs (sign : Sign) : isNegative (-sign) = !isNegative sign := by cases sign <;> rfl
  have negated : -x = .ofModel (.pack x.toModel.unpack.neg) := rfl
  rw [negated, ofFloat_eq x]
  cases held : x.toModel.unpack with
  | notANumber => rfl
  | infinity sign => rw [UnpackedFloat.neg, ofFloat_pack_infinity, signs]; rfl
  | zero sign => rw [UnpackedFloat.neg, ofFloat_pack_zero, signs]; rfl
  | finite sign significand exponent positive =>
      rw [UnpackedFloat.neg, ofFloat_pack_finite _ positive (canonical_of_unpack held), signs]
      rfl

end MapBlocks.Decimal
