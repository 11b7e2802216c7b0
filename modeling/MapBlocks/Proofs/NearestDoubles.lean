import MapBlocks.Proofs.DistinctDoubles

/-!
# The double nearest to a decimal

A decimal is read by looking through the exponents of doubles for a double in
whose rounding interval the decimal lies.  There is at most one, so that the
search finds a double again from its shortest decimal.
-/

namespace MapBlocks.Decimal

open RoundingInterval

instance (significand : ℕ) (exponent : ℤ) : Decidable (Canonical significand exponent) :=
  decidable_of_iff
    (significand < 2 ^ 53 ∧ -1074 ≤ exponent ∧ exponent ≤ 971 ∧
      (-1074 < exponent → 2 ^ 52 ≤ significand))
    ⟨fun ⟨fits, least, greatest, full⟩ => ⟨fits, least, greatest, full⟩,
      fun ⟨fits, least, greatest, full⟩ => ⟨fits, least, greatest, full⟩⟩

namespace Scaled

/-- The multiples of each power of two that are next to a decimal. -/
def neighbours (decimal : Scaled) : List (ℕ × ℤ) :=
  (List.range 2046).flatMap fun biased : ℕ =>
    let exponent : ℤ := biased - 1074
    let (numerator, denominator) := (around 0 exponent).unitAt decimal.exponent
    let below := decimal.digits * denominator / (4 * numerator)
    [(below, exponent), (below + 1, exponent)]

/-- The double to which a decimal rounds, unless the decimal is beyond the range of doubles. -/
def nearest? (decimal : Scaled) : Option (ℕ × ℤ) :=
  decimal.neighbours.find? fun (significand, exponent) =>
    decide (Canonical significand exponent) &&
      (around significand exponent).admits decimal.exponent decimal.digits

variable {decimal : Scaled} {significand : ℕ} {exponent : ℤ}

/-- What rounds to a double is at most half a gap away from it. -/
theorem close_of_admits {place : ℤ} {digits : ℕ}
    (admitted : (around significand exponent).admits place digits = true) :
    (4 * significand - 2) * ((around significand exponent).unitAt place).1 ≤
        digits * ((around significand exponent).unitAt place).2 ∧
      digits * ((around significand exponent).unitAt place).2 ≤
        (4 * significand + 2) * ((around significand exponent).unitAt place).1 := by
  have lower : 4 * significand - 2 ≤ (around significand exponent).lower := by
    simp only [around]
    split <;> omega
  have widened := Nat.mul_le_mul_right ((around significand exponent).unitAt place).1 lower
  simp only [admits] at admitted
  split at admitted
  · simp only [Bool.and_eq_true, decide_eq_true_eq] at admitted
    exact ⟨widened.trans admitted.1, admitted.2⟩
  · simp only [Bool.and_eq_true, decide_eq_true_eq] at admitted
    exact ⟨widened.trans admitted.1.le, admitted.2.le⟩

theorem mem_neighbours
    (canonical : Canonical significand exponent)
    (admitted : (around significand exponent).admits decimal.exponent decimal.digits = true) :
    (significand, exponent) ∈ decimal.neighbours := by
  obtain ⟨biased, placed⟩ : ∃ biased : ℕ, exponent = biased - 1074 :=
    ⟨(exponent + 1074).toNat, by have := canonical.least; omega⟩
  have greatest := canonical.greatest
  refine List.mem_flatMap.mpr ⟨biased, List.mem_range.mpr (by omega), ?_⟩
  simp only [← placed]
  -- The units of an interval depend on its exponent alone.
  have positive : 0 < ((around 0 exponent).unitAt decimal.exponent).1 := (unitAt_pos _ _).1
  have close := close_of_admits admitted
  have units : (around significand exponent).unitAt decimal.exponent =
      (around 0 exponent).unitAt decimal.exponent := rfl
  rw [units] at close
  generalize (around 0 exponent).unitAt decimal.exponent = unit at *
  have above : decimal.digits * unit.2 / (4 * unit.1) < significand + 1 := by
    refine (Nat.div_lt_iff_lt_mul (by omega)).mpr (close.2.trans_lt ?_)
    nlinarith
  have below : significand - 1 ≤ decimal.digits * unit.2 / (4 * unit.1) := by
    refine (Nat.le_div_iff_mul_le (by omega)).mpr (le_trans ?_ close.1)
    rw [← Nat.mul_assoc]
    exact Nat.mul_le_mul_right _ (by omega)
  simp only [List.mem_cons, Prod.mk.injEq, and_true, List.not_mem_nil, or_false]
  omega

theorem nearest?_eq
    (canonical : Canonical significand exponent)
    (holds : (around significand exponent).Holds decimal.value) :
    decimal.nearest? = some (significand, exponent) := by
  have admitted := ((around significand exponent).admits_iff _ _).mpr holds
  have found : decimal.nearest?.isSome = true := by
    refine List.find?_isSome.mpr ⟨_, mem_neighbours canonical admitted, ?_⟩
    simp [canonical, admitted]
  obtain ⟨⟨other, larger⟩, reached⟩ := Option.isSome_iff_exists.mp found
  have accepted := List.find?_some reached
  simp only [Bool.and_eq_true, decide_eq_true_eq] at accepted
  obtain ⟨rfl, rfl⟩ := eq_of_holds canonical accepted.1 holds
    (((around other larger).admits_iff _ _).mp accepted.2)
  exact reached

end Scaled

theorem holds_zero : (around 0 (-1074)).Holds 0 := by
  have below : (around 0 (-1074)).lower = 0 := rfl
  have ends : (around 0 (-1074)).closed = true := rfl
  rw [Holds, if_pos ends, below]
  exact ⟨by simp, by positivity⟩

end MapBlocks.Decimal
