import MapBlocks.Decimal.Binary
import MapBlocks.Proofs.ShortestDecimal

/-!
# Distinct doubles have distinct decimals

The rounding intervals of two positive doubles have at most an end in common, and
such an end belongs to one of the two at most, the one with the even significand.
So a decimal rounds to one double only, and a finite double is determined by its
sign, significand and exponent.
-/

namespace MapBlocks.Decimal

namespace RoundingInterval

theorem le_of_holds {interval : RoundingInterval} {x : ℚ} (holds : interval.Holds x) :
    interval.lower * (2 : ℚ) ^ interval.exponent ≤ x ∧
      x ≤ interval.upper * (2 : ℚ) ^ interval.exponent := by
  unfold Holds at holds
  split at holds
  · exact holds
  · exact ⟨holds.1.le, holds.2.le⟩

theorem lt_of_holds
    {interval : RoundingInterval} {x : ℚ} (holds : interval.Holds x)
    (isOpen : interval.closed = false) :
    interval.lower * (2 : ℚ) ^ interval.exponent < x ∧
      x < interval.upper * (2 : ℚ) ^ interval.exponent := by
  simpa [Holds, isOpen] using holds

variable {significand other : ℕ} {exponent larger : ℤ} {x : ℚ}

theorem digits_pos_of_holds
    {decimal : Scaled} (positive : 0 < significand)
    (holds : (around significand exponent).Holds decimal.value) : 0 < decimal.digits := by
  have lower : 0 < (around significand exponent).lower := by
    simp only [around]
    split <;> omega
  have bound := (le_of_holds holds).1
  rcases Nat.eq_zero_or_pos decimal.digits with zero | digits
  · have end_pos : (0 : ℚ) < (around significand exponent).lower *
        (2 : ℚ) ^ (around significand exponent).exponent := by positivity
    rw [Scaled.value, zero, Nat.cast_zero, zero_mul] at bound
    exact absurd bound (not_le.mpr end_pos)
  · exact digits

/-- What rounds to a double lies below the next power of two by at least a quarter of a gap. -/
theorem lt_of_holds_around
    (canonical : Canonical significand exponent)
    (holds : (around significand exponent).Holds x) :
    x < ((2 ^ 55 - 2 : ℕ) : ℚ) * (2 : ℚ) ^ (exponent - 2) := by
  have fits := canonical.fits
  have unit : (0 : ℚ) < (2 : ℚ) ^ (exponent - 2) := by positivity
  by_cases top : significand = 2 ^ 53 - 1
  · have isOpen : (around significand exponent).closed = false := by
      rw [top]
      rfl
    have strict := (lt_of_holds holds isOpen).2
    simpa [around, top] using strict
  · have weak := (le_of_holds holds).2
    refine weak.trans_lt (mul_lt_mul_of_pos_right ?_ unit)
    simp only [around, Nat.cast_lt]
    omega

/-- What rounds to a double with a full significand is above its power of two but for a quarter of
a gap. -/
theorem le_of_holds_around
    (canonical : Canonical significand exponent) (normal : -1074 < exponent)
    (holds : (around significand exponent).Holds x) :
    ((2 ^ 54 - 1 : ℕ) : ℚ) * (2 : ℚ) ^ (exponent - 2) ≤ x := by
  have full := canonical.full normal
  have unit : (0 : ℚ) < (2 : ℚ) ^ (exponent - 2) := by positivity
  refine le_trans (mul_le_mul_of_nonneg_right ?_ unit.le) (le_of_holds holds).1
  simp only [around, Nat.cast_le, Nat.pow_eq]
  split <;> omega

theorem not_holds_of_exponent_lt
    (canonical : Canonical significand exponent) (canonicalOther : Canonical other larger)
    (smaller : exponent < larger)
    (holds : (around significand exponent).Holds x) :
    ¬(around other larger).Holds x := by
  intro holdsOther
  have below := lt_of_holds_around canonical holds
  have above := le_of_holds_around canonicalOther
    (lt_of_le_of_lt canonical.least smaller) holdsOther
  have step : (2 : ℚ) ^ (exponent - 2) * 2 ≤ (2 : ℚ) ^ (larger - 2) := by
    rw [← zpow_add_one₀ (by norm_num)]
    exact zpow_le_zpow_right₀ (by norm_num) (by omega)
  have unit : (0 : ℚ) < (2 : ℚ) ^ (exponent - 2) := by positivity
  norm_num at below above
  linarith

theorem not_holds_of_significand_lt
    (canonical : Canonical significand exponent) (smaller : significand < other)
    (holds : (around significand exponent).Holds x) :
    ¬(around other exponent).Holds x := by
  intro holdsOther
  have unit : (0 : ℚ) < (2 : ℚ) ^ (exponent - 2) := by positivity
  have lower : (around other exponent).lower = 4 * other - 2 := by
    refine if_neg ?_
    rintro ⟨power, normal⟩
    have full := canonical.full normal
    rw [Nat.pow_eq] at power
    omega
  have below := (le_of_holds holds).2
  have above := (le_of_holds holdsOther).1
  rw [lower] at above
  -- The intervals touch if the doubles are neighbours, and one of these two is odd.
  have notAbove : ¬(4 * significand + 2 < 4 * other - 2) := by
    intro gap
    have strict := mul_lt_mul_of_pos_right (Nat.cast_lt (α := ℚ).mpr gap) unit
    exact absurd (above.trans below) (not_le.mpr strict)
  have neighbour : other = significand + 1 := by omega
  have meet : 4 * other - 2 = 4 * significand + 2 := by omega
  rw [meet] at above
  rcases Nat.mod_two_eq_zero_or_one significand with even | odd
  · have isOpen : (around other exponent).closed = false := by
      change (other % 2 == 0) = false
      simp only [beq_eq_false_iff_ne]
      omega
    have strict := (lt_of_holds holdsOther isOpen).1
    rw [lower, meet] at strict
    exact absurd below (not_le.mpr strict)
  · have isOpen : (around significand exponent).closed = false := by
      change (significand % 2 == 0) = false
      simp only [beq_eq_false_iff_ne]
      omega
    exact absurd above (not_le.mpr (lt_of_holds holds isOpen).2)

/-- A number rounds to one double only. -/
theorem eq_of_holds
    (canonical : Canonical significand exponent) (canonicalOther : Canonical other larger)
    (holds : (around significand exponent).Holds x)
    (holdsOther : (around other larger).Holds x) :
    significand = other ∧ exponent = larger := by
  rcases lt_trichotomy exponent larger with below | rfl | above
  · exact (not_holds_of_exponent_lt canonical canonicalOther below holds holdsOther).elim
  · rcases lt_trichotomy significand other with below | same | above
    · exact (not_holds_of_significand_lt canonical below holds holdsOther).elim
    · exact ⟨same, rfl⟩
    · exact (not_holds_of_significand_lt canonicalOther above holdsOther holds).elim
  · exact (not_holds_of_exponent_lt canonicalOther canonical above holdsOther holds).elim

end RoundingInterval

end MapBlocks.Decimal
