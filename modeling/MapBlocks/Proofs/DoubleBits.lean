import Mathlib
import MapBlocks.Proofs.ShortestDecimal

/-!
# The bits of a double

A double is determined by its bits, and a finite one by the sign, the significand
and the exponent that its bits hold.
-/

namespace MapBlocks.Decimal

section Bits

open Float.Model Float.Model.UnpackedFloat

variable (bits : BitVec Format.binary64.numBits)

theorem packComponents_unpack :
    packComponents Format.binary64 (Sign.ofBitVec (unpackSign bits)) (unpackExponent bits)
      (unpackMantissa bits) = bits := by
  have sign : ∀ bit : BitVec 1, (Sign.ofBitVec bit).toBitVec = bit := by decide
  simp only [packComponents, sign, unpackSign, unpackExponent, unpackMantissa, BitVec.extractLsb]
  ext i inside
  grind

theorem toNat_unpackExponent :
    (unpackExponent bits).toNat = bits.toNat / 2 ^ 52 % 2048 := by
  simp [unpackExponent, BitVec.extractLsb_toNat, Nat.shiftRight_eq_div_pow]

theorem toNat_unpackMantissa_lt : (unpackMantissa bits).toNat < 2 ^ 52 :=
  (unpackMantissa bits).isLt

/-- The leading bit of a double is not among its bits, unless it is a very small one. -/
theorem toNat_leading_append :
    (1#1 ++ unpackMantissa bits).toNat = 2 ^ 52 + (unpackMantissa bits).toNat := by
  rw [BitVec.toNat_append, ← Nat.shiftLeft_add_eq_or_of_lt (toNat_unpackMantissa_lt bits)]
  rfl

theorem log2_of_full {n : ℕ} (full : 2 ^ 52 ≤ n) (fits : n < 2 ^ 53) : n.log2 + 1 = 53 := by
  rw [(Nat.log2_eq_iff (by omega)).mpr ⟨full, fits⟩]

/-- Packing puts the parts of a double back into their places. -/
theorem pack_unpack (valid : Format.binary64.Valid bits) :
    UnpackedFloat.pack Format.binary64 (UnpackedFloat.unpack Format.binary64 bits) = bits := by
  have whole := packComponents_unpack bits
  have fraction := toNat_unpackMantissa_lt bits
  have width : (unpackExponent bits).toNat < 2 ^ 11 := (unpackExponent bits).isLt
  have bias : Format.binary64.exponentBias = 1023 := rfl
  have precision : Format.binary64.mantissaBits = 53 := rfl
  simp only [UnpackedFloat.unpack]
  split
  case isTrue special =>
    split
    case isTrue empty => rwa [special, empty] at whole
    case isFalse nonempty => exact (valid.eq_packedNaN special nonempty).symm
  case isFalse finite =>
    split
    case isTrue least =>
      split
      case isTrue empty => rwa [least, empty] at whole
      case isFalse nonempty =>
        have positive : (unpackMantissa bits).toNat ≠ 0 := by
          simpa [← BitVec.toNat_inj] using nonempty
        have log := (Nat.log2_lt positive).mpr fraction
        rw [least] at whole ⊢
        rw [UnpackedFloat.pack, precision, if_neg (by decide), if_neg (by omega),
          BitVec.ofNat_toNat, BitVec.setWidth_eq]
        exact whole
    case isFalse normal =>
      have top : (unpackExponent bits).toNat ≠ 2047 := fun same =>
        finite (BitVec.eq_of_toNat_eq same)
      have exponent : ((unpackExponent bits).toNat - (((1023 : ℕ) : ℤ) + (52 : ℕ))
          + (1023 : ℕ) + (52 : ℕ)).toNat = (unpackExponent bits).toNat := by omega
      have mantissa : BitVec.ofNat 52 (2 ^ 52 + (unpackMantissa bits).toNat) =
          unpackMantissa bits := by
        apply BitVec.eq_of_toNat_eq
        simp
        omega
      rw [UnpackedFloat.pack, precision, bias, toNat_leading_append, exponent]
      simp only [log2_of_full (Nat.le_add_right _ _) (Nat.add_lt_add_left fraction _), if_true,
        mantissa, BitVec.ofNat_toNat, BitVec.setWidth_eq]
      rw [if_neg (by omega)]
      exact whole

end Bits

theorem ofBits_toBits (x : Float) : Float.ofBits x.toBits = x := by
  obtain ⟨⟨bits, valid⟩⟩ := x
  have packed := pack_unpack bits.toBitVec valid
  simp only [Float.ofBits, Float.toBits, Float.Model.ofBits, Float.Model.pack, packed]

theorem isFinite_iff (x : Float) :
    x.isFinite = true ↔ x.toBits.toNat / 2 ^ 52 % 2048 ≠ 2047 := by
  let bits : BitVec Float.Model.Format.binary64.numBits := x.toBits.toBitVec
  have top : Float.Model.UnpackedFloat.unpackExponent bits = -1#_ ↔
      x.toBits.toNat / 2 ^ 52 % 2048 = 2047 := by
    rw [← BitVec.toNat_inj, toNat_unpackExponent]
    rfl
  change (Float.Model.UnpackedFloat.unpack _ bits).isFinite = true ↔ _
  rw [Ne, ← top, Float.Model.UnpackedFloat.unpack]
  split
  case isTrue special => split <;> simp [special, Float.Model.UnpackedFloat.isFinite]
  case isFalse ordinary =>
    simp only [ordinary, not_false_iff, iff_true]
    split
    · split <;> rfl
    · rfl

/-- The bits of a double with the given parts. -/
def bitsOf (negative : Bool) (significand : ℕ) (exponent : ℤ) : ℕ :=
  (if negative then 2 ^ 63 else 0) + (exponent + 1074).toNat * 2 ^ 52 + significand

/-- The double with the given parts. -/
def double (negative : Bool) (significand : ℕ) (exponent : ℤ) : Float :=
  Float.ofBits (UInt64.ofNat (bitsOf negative significand exponent))

/-- A finite double has the parts of which it is made up. -/
theorem parts_of_isFinite {x : Float} (finite : x.isFinite = true) :
    ∃ negative significand exponent,
      Binary.ofFloat x = .finite negative significand exponent ∧
      RoundingInterval.Canonical significand exponent ∧
      double negative significand exponent = x := by
  have top := (isFinite_iff x).mp finite
  have width : x.toBits.toNat < 2 ^ 64 := x.toBits.toNat_lt
  have restored {bits : ℕ} (same : bits = x.toBits.toNat) :
      Float.ofBits (UInt64.ofNat bits) = x := by
    rw [same, UInt64.ofNat_toNat, ofBits_toBits]
  simp only [Binary.ofFloat, Binary.ofBits, Nat.pow_eq, if_neg top]
  generalize x.toBits.toNat = bits at *
  split
  case isTrue least =>
    refine ⟨_, _, _, rfl, ⟨by omega, by omega, by omega, by omega⟩, restored ?_⟩
    rw [bitsOf]
    split <;> simp_all <;> omega
  case isFalse normal =>
    refine ⟨_, _, _, rfl, ⟨by omega, by omega, by omega, by omega⟩, restored ?_⟩
    rw [bitsOf]
    split <;> simp_all <;> omega

end MapBlocks.Decimal
