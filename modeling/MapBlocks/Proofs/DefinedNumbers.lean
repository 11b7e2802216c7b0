import MapBlocks.Proofs.DecimalDigits
import MapBlocks.Proofs.FiniteDoubles

/-!
# Numbers that are defined

A quotient or product of finite doubles may be too large for a double, but it is
a number unless the divisor is zero.  What is written as `NaN` is no number, and
nothing else is written so.
-/

namespace MapBlocks.Decimal

section Arithmetic

open Float.Model Float.Model.UnpackedFloat

variable (bits : BitVec Format.binary64.numBits)

theorem toNat_unpackMantissa : (unpackMantissa bits).toNat = bits.toNat % 2 ^ 52 := by
  simp [unpackMantissa, BitVec.extractLsb_toNat]

theorem isNaN_of_isFinite {number : UnpackedFloat} (finite : number.isFinite = true) :
    number.isNaN = false := by
  cases number with
  | notANumber => cases finite
  | _ => rfl

theorem isNaN_packedInfinity (sign : Sign) :
    (UnpackedFloat.unpack Format.binary64 (packedInfinity Format.binary64 sign)).isNaN = false := by
  cases sign <;> decide

/-- A number stays one in a double: at worst it becomes infinite. -/
theorem isNaN_unpack_pack {number : UnpackedFloat} (defined : number.isNaN = false) :
    (UnpackedFloat.unpack Format.binary64
      (UnpackedFloat.pack Format.binary64 number)).isNaN = false := by
  cases number with
  | notANumber => cases defined
  | infinity sign => exact isNaN_packedInfinity sign
  | zero sign => exact isNaN_of_isFinite (isFinite_unpack_pack (.zero sign))
  | finite sign significand exponent positive =>
      by_cases fits : exponent ≤ 971
      · exact isNaN_of_isFinite (isFinite_unpack_pack (.finite fits))
      · have large : 2 ^ Format.binary64.exponentBits ≤
            (exponent + Format.binary64.exponentBias +
              Format.binary64.mantissaBitsWithoutImplicit).toNat + 1 := by
          change 2048 ≤ (exponent + 1023 + 52).toNat + 1
          omega
        rw [UnpackedFloat.pack, if_pos large]
        exact isNaN_packedInfinity sign

theorem isNaN_roundWithAccuracy
    (sign : Sign) (significand : ℕ) (exponent : ℤ) (accuracy : Accuracy) :
    (roundWithAccuracy Format.binary64 sign significand exponent accuracy).isNaN = false := by
  simp only [roundWithAccuracy]
  split <;> rfl

/-- A number that is not zero holds no zero. -/
theorem unpack_ne_zero {x : Float} (nonzero : (x == 0) = false) (sign : Sign) :
    x.toModel.unpack ≠ .zero sign := by
  intro zero
  have same : (x == 0) = x.toModel.unpack.beq (.zero .positive) := rfl
  rw [same, zero] at nonzero
  cases nonzero

end Arithmetic

theorem isNaN_div {x y : Float} (finite : x.isFinite = true) (divisor : y.isFinite = true)
    (nonzero : (y == 0) = false) : (x / y).isNaN = false := by
  refine isNaN_unpack_pack ?_
  have first : Packable x.toModel.unpack := packable_unpack finite
  have second : Packable y.toModel.unpack := packable_unpack divisor
  have notZero := unpack_ne_zero nonzero
  generalize x.toModel.unpack = dividend at *
  generalize y.toModel.unpack = divisor at *
  cases second with
  | zero sign => exact absurd rfl (notZero sign)
  | finite =>
      cases first with
      | zero => rfl
      | finite => exact isNaN_roundWithAccuracy _ _ _ _

theorem isNaN_mul {x y : Float} (left : x.isFinite = true) (right : y.isFinite = true) :
    (x * y).isNaN = false := by
  refine isNaN_unpack_pack ?_
  have first : Packable x.toModel.unpack := packable_unpack left
  have second : Packable y.toModel.unpack := packable_unpack right
  generalize x.toModel.unpack = multiplier at *
  generalize y.toModel.unpack = multiplicand at *
  cases first with
  | zero => cases second <;> rfl
  | finite =>
      cases second with
      | zero => rfl
      | finite => exact isNaN_roundWithAccuracy _ _ _ _

theorem ofFloat_eq_nan_iff (x : Float) : Binary.ofFloat x = .nan ↔ x.isNaN = true := by
  let bits : BitVec Float.Model.Format.binary64.numBits := x.toBits.toBitVec
  by_cases special : x.toBits.toNat / 2 ^ 52 % 2048 = 2047
  · have top : Float.Model.UnpackedFloat.unpackExponent bits = -1#_ :=
      BitVec.eq_of_toNat_eq ((toNat_unpackExponent bits).trans special)
    have empty : Float.Model.UnpackedFloat.unpackMantissa bits = 0#_ ↔
        x.toBits.toNat % 2 ^ 52 = 0 := by
      rw [← BitVec.toNat_inj, toNat_unpackMantissa]
      rfl
    change _ ↔ (Float.Model.UnpackedFloat.unpack _ bits).isNaN = true
    rw [Float.Model.UnpackedFloat.unpack, if_pos top]
    simp only [Binary.ofFloat, Binary.ofBits, Nat.pow_eq, if_pos special, empty]
    split <;> simp [Float.Model.UnpackedFloat.isNaN]
  · have finite : x.isFinite = true := (isFinite_iff x).mpr special
    have defined : x.isNaN = false := isNaN_of_isFinite finite
    simp only [Binary.ofFloat, Binary.ofBits, Nat.pow_eq, if_neg special, defined]
    split <;> simp

namespace Layout

theorem head?_positional
    {digits : List Char} (nonempty : digits ≠ []) (showsPoint : Bool) (whole : Int) :
    ∃ first ∈ (positional showsPoint digits whole).head?, first = '0' ∨ first ∈ digits := by
  obtain ⟨first, others, rfl⟩ := List.exists_cons_of_ne_nil nonempty
  unfold positional
  split
  · exact ⟨'0', rfl, .inl rfl⟩
  · refine ⟨first, ?_, .inr List.mem_cons_self⟩
    split
    · rfl
    · obtain ⟨count, positive⟩ : ∃ count, whole.toNat = count + 1 :=
        Nat.exists_eq_succ_of_ne_zero (by omega)
      rw [positive]
      rfl

theorem head?_scientific {digits : List Char} (nonempty : digits ≠ []) (exponent : Int) :
    ∃ first ∈ (scientific digits exponent).head?, first ∈ digits := by
  match digits with
  | [] => exact absurd rfl nonempty
  | [first] => exact ⟨first, rfl, List.mem_cons_self⟩
  | first :: _ :: _ => exact ⟨first, rfl, List.mem_cons_self⟩

theorem head?_renderScaled (layout : Layout) (decimal : Scaled) :
    ∃ first ∈ (layout.renderScaled decimal).head?, isDigitOf 10 first = true := by
  have nonempty := digitsOf_ne_nil decimal.digits
  simp only [renderScaled]
  split
  · obtain ⟨first, found, rfl | digit⟩ := head?_positional nonempty layout.showsPoint
      (decimal.exponent + (digitsOf decimal.digits).length)
    · exact ⟨'0', found, rfl⟩
    · exact ⟨first, found, isDigitOf_of_mem_digitsOf digit⟩
  · obtain ⟨first, found, digit⟩ := head?_scientific nonempty
      (decimal.exponent + (digitsOf decimal.digits).length - 1)
    exact ⟨first, found, isDigitOf_of_mem_digitsOf digit⟩

/-- Only what is no number is written as `NaN`. -/
theorem render_eq_nan_iff
    {layout : Layout} (zero : layout.zero ≠ "NaN") (negativeZero : layout.negativeZero ≠ "NaN")
    (x : Float) : layout.render x = "NaN" ↔ x.isNaN = true := by
  rw [← ofFloat_eq_nan_iff, ← String.toList_inj, render, String.toList_ofList]
  cases Binary.ofFloat x with
  | nan => simp [renderBinary]
  | infinite negative => cases negative <;> simp [renderBinary]
  | finite negative significand exponent =>
      simp only [renderBinary, reduceCtorEq, iff_false]
      split
      · cases negative
        · exact fun same => zero (String.toList_inj.mp same)
        · exact fun same => negativeZero (String.toList_inj.mp same)
      · obtain ⟨first, found, digit⟩ := head?_renderScaled layout
          ((RoundingInterval.around significand exponent).shortest layout.tie)
        intro same
        have leading := congrArg List.head? same
        cases negative
        · simp only [Bool.false_eq_true, if_false, List.nil_append] at leading
          rw [leading] at found
          cases found
          cases digit
        · cases leading

end Layout

end MapBlocks.Decimal
