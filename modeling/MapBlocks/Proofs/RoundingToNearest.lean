import Mathlib
import MapBlocks.Proofs.DistinctDoubles

/-!
# Rounding to the nearest double

The rounding interval of a double holds just those numbers to which no other double
is nearer, and of two equally near doubles the even one is taken.  From half a gap
above the largest double onward a number rounds to infinity.
-/

namespace MapBlocks.Decimal

open RoundingInterval

/-- The number that a significand and an exponent stand for. -/
def binaryValue (significand : ℕ) (exponent : ℤ) : ℚ := significand * (2 : ℚ) ^ exponent

/-- The least positive number that is too large for a double. -/
def overflow : ℚ := ((2 ^ 54 - 1 : ℕ) : ℚ) * (2 : ℚ) ^ (970 : ℤ)

/-- A number is in the range of doubles, and no double is nearer to it than the given one. If
another double is as near, the given one is even. -/
structure IsNearest (number : ℚ) (significand : ℕ) (exponent : ℤ) : Prop where
  canonical : Canonical significand exponent
  bounded : number < overflow
  near : ∀ {other : ℕ} {larger : ℤ}, Canonical other larger →
    |number - binaryValue significand exponent| ≤ |number - binaryValue other larger|
  even : ∀ {other : ℕ} {larger : ℤ}, Canonical other larger →
    binaryValue other larger ≠ binaryValue significand exponent →
    |number - binaryValue significand exponent| = |number - binaryValue other larger| →
    significand % 2 = 0

/-- What a number that is not negative rounds to, with a sign. -/
inductive RoundsTo (negative : Bool) (number : ℚ) : Binary → Prop where
  | finite {significand : ℕ} {exponent : ℤ} (nearest : IsNearest number significand exponent) :
      RoundsTo negative number (.finite negative significand exponent)
  | infinite (large : overflow ≤ number) : RoundsTo negative number (.infinite negative)

/-- The distance of a double to the next smaller one, in units of its last place. -/
def gapBelow (significand : ℕ) (exponent : ℤ) : ℚ :=
  if significand = 2 ^ 52 ∧ -1074 < exponent then 1 / 2 else 1

section Gaps

variable {significand other : ℕ} {exponent larger : ℤ}

theorem unit_pos (exponent : ℤ) : (0 : ℚ) < 2 ^ exponent := zpow_pos (by norm_num) exponent

theorem unit_eq_double (exponent : ℤ) : (2 : ℚ) ^ exponent = 2 ^ (exponent - 1) * 2 := by
  rw [← zpow_add_one₀ (by norm_num), sub_add_cancel]

/-- With a smaller exponent the same number has a larger significand. -/
theorem binaryValue_eq (significand : ℕ) (coarser : larger ≤ exponent) :
    binaryValue significand exponent =
      binaryValue (significand * 2 ^ (exponent - larger).toNat) larger := by
  obtain ⟨count, rfl⟩ : ∃ count : ℕ, exponent = larger + count :=
    ⟨(exponent - larger).toNat, by omega⟩
  have steps : (larger + count - larger).toNat = count := by omega
  rw [binaryValue, binaryValue, steps, zpow_add₀ (by norm_num), zpow_natCast]
  push_cast
  ring

theorem binaryValue_le_iff (significand other : ℕ) (exponent : ℤ) :
    binaryValue significand exponent ≤ binaryValue other exponent ↔ significand ≤ other := by
  rw [binaryValue, binaryValue, mul_le_mul_iff_left₀ (unit_pos exponent), Nat.cast_le]

theorem binaryValue_lt_iff (significand other : ℕ) (exponent : ℤ) :
    binaryValue significand exponent < binaryValue other exponent ↔ significand < other := by
  rw [← not_le, binaryValue_le_iff, not_le]

/-- A double with a smaller exponent is at least half a unit below the least double of a larger
one. -/
theorem binaryValue_le_of_exponent_lt
    (canonical : Canonical other larger) (smaller : larger < exponent) :
    binaryValue other larger ≤ (2 ^ 52 - 1 / 2) * (2 : ℚ) ^ exponent := by
  have fits : other ≤ 2 ^ 53 - 1 := Nat.le_pred_of_lt canonical.fits
  have least : binaryValue other larger ≤ binaryValue (2 ^ 53 - 1) larger :=
    (binaryValue_le_iff _ _ _).mpr fits
  have halved : (2 : ℚ) ^ larger ≤ 2 ^ (exponent - 1) :=
    zpow_le_zpow_right₀ (by norm_num) (by omega)
  calc binaryValue other larger
      ≤ binaryValue (2 ^ 53 - 1) larger := least
    _ ≤ ((2 ^ 53 - 1 : ℕ) : ℚ) * 2 ^ (exponent - 1) :=
        mul_le_mul_of_nonneg_left halved (Nat.cast_nonneg _)
    _ = (2 ^ 52 - 1 / 2) * (2 : ℚ) ^ exponent := by
        rw [unit_eq_double exponent]
        norm_num
        ring

/-- The next double is a unit above. -/
theorem succ_le_of_lt
    (canonical : Canonical significand exponent) (canonicalOther : Canonical other larger)
    (greater : binaryValue significand exponent < binaryValue other larger) :
    binaryValue (significand + 1) exponent ≤ binaryValue other larger := by
  by_cases coarser : exponent ≤ larger
  · rw [binaryValue_eq other coarser] at greater ⊢
    exact (binaryValue_le_iff _ _ _).mpr ((binaryValue_lt_iff _ _ _).mp greater)
  · have normal : -1074 < exponent := lt_of_le_of_lt canonicalOther.least (by omega)
    have full : (2 ^ 52 : ℚ) ≤ significand := by exact_mod_cast canonical.full normal
    have below := binaryValue_le_of_exponent_lt canonicalOther (lt_of_not_ge coarser)
    have unit := unit_pos exponent
    rw [binaryValue] at greater
    nlinarith

/-- With a full significand, the double before is no lower than the last one of the exponent
before. -/
theorem le_sub_gapBelow (normal : -1074 < exponent) (full : 2 ^ 52 ≤ significand) :
    (2 ^ 52 - 1 / 2 : ℚ) ≤ significand - gapBelow significand exponent := by
  rw [gapBelow]
  split
  · rename_i power
    rw [power.1]
    norm_num
  · rename_i ordinary
    have different : significand ≠ 2 ^ 52 := fun same => ordinary ⟨same, normal⟩
    have above : 2 ^ 52 + 1 ≤ significand := lt_of_le_of_ne full different.symm
    have cast : (2 ^ 52 + 1 : ℚ) ≤ significand := by exact_mod_cast above
    linarith

/-- The double before is below by the gap. -/
theorem le_of_lt_binaryValue
    (canonical : Canonical significand exponent) (canonicalOther : Canonical other larger)
    (less : binaryValue other larger < binaryValue significand exponent) :
    binaryValue other larger ≤ (significand - gapBelow significand exponent) * 2 ^ exponent := by
  have unit := unit_pos exponent
  by_cases coarser : exponent ≤ larger
  · rw [binaryValue_eq other coarser] at less ⊢
    have step := (binaryValue_lt_iff _ _ _).mp less
    have cast : ((other * 2 ^ (larger - exponent).toNat : ℕ) : ℚ) + 1 ≤ significand := by
      exact_mod_cast step
    rw [binaryValue, gapBelow]
    split <;> nlinarith
  · have below := binaryValue_le_of_exponent_lt canonicalOther (lt_of_not_ge coarser)
    have normal : -1074 < exponent := lt_of_le_of_lt canonicalOther.least (by omega)
    have gap := le_sub_gapBelow normal (canonical.full normal)
    exact below.trans (mul_le_mul_of_nonneg_right gap unit.le)

/-- Half a gap on either side of a double belongs to its interval, with the ends if it is even. -/
theorem holds_around_iff {number : ℚ} (nonneg : 0 ≤ number) :
    (around significand exponent).Holds number ↔
      ((significand - gapBelow significand exponent / 2) * 2 ^ exponent ≤ number ∧
        number ≤ (significand + 1 / 2) * 2 ^ exponent) ∧
      (number = (significand - gapBelow significand exponent / 2) * 2 ^ exponent ∨
          number = (significand + 1 / 2) * 2 ^ exponent →
        significand % 2 = 0) := by
  have unit := unit_pos exponent
  have quarter : (2 : ℚ) ^ exponent = 4 * 2 ^ (exponent - 2) := by
    rw [show (4 : ℚ) = 2 ^ (2 : ℤ) by norm_num, ← zpow_add₀ (by norm_num)]
    congr 1
    ring
  have upper : ((around significand exponent).upper : ℚ) *
        2 ^ (around significand exponent).exponent =
      (significand + 1 / 2) * 2 ^ exponent := by
    simp only [around]
    push_cast
    rw [quarter]
    ring
  have closed : (around significand exponent).closed = true ↔ significand % 2 = 0 := beq_iff_eq
  by_cases zero : significand = 0
  · have even : significand % 2 = 0 := by rw [zero]
    have lower : ((around significand exponent).lower : ℚ) = 0 := by
      rw [zero]
      simp [around]
    have negative : (significand - gapBelow significand exponent / 2) * 2 ^ exponent ≤ number := by
      rw [zero, gapBelow, if_neg (by simp)]
      push_cast
      nlinarith
    rw [Holds, if_pos (closed.mpr even), upper, lower]
    simp only [zero_mul, nonneg, true_and, negative, even, implies_true, and_true]
  · have lower : ((around significand exponent).lower : ℚ) *
          2 ^ (around significand exponent).exponent =
        (significand - gapBelow significand exponent / 2) * 2 ^ exponent := by
      have positive : 2 ≤ 4 * significand := by omega
      simp only [around, gapBelow, Nat.pow_eq]
      rw [quarter]
      split
      · rw [Nat.cast_sub (by omega)]
        push_cast
        ring
      · rw [Nat.cast_sub positive]
        push_cast
        ring
    rw [Holds, lower, upper]
    split
    · rename_i even
      simp only [closed.mp even, implies_true, and_true]
    · rename_i odd
      simp only [closed] at odd
      simp only [odd, imp_false, not_or, lt_iff_le_and_ne]
      tauto

/-! ### Neighbours -/

theorem exists_next
    (canonical : Canonical significand exponent)
    (room : significand + 1 < 2 ^ 53 ∨ exponent < 971) :
    ∃ (other : ℕ) (larger : ℤ), Canonical other larger ∧
      binaryValue other larger = (significand + 1) * 2 ^ exponent := by
  obtain ⟨fits, least, greatest, full⟩ := canonical
  by_cases inside : significand + 1 < 2 ^ 53
  · refine ⟨significand + 1, exponent, ⟨inside, least, greatest, ?_⟩, ?_⟩
    · intro normal
      exact (full normal).trans (Nat.le_succ _)
    · rw [binaryValue, Nat.cast_succ]
  · have top : significand + 1 = 2 ^ 53 := by omega
    refine ⟨2 ^ 52, exponent + 1, ⟨by norm_num, by omega, by omega, fun _ => le_rfl⟩, ?_⟩
    have cast : (significand : ℚ) + 1 = 2 ^ 53 := by exact_mod_cast top
    rw [binaryValue, cast, zpow_add_one₀ (by norm_num)]
    push_cast
    ring

theorem exists_previous
    (canonical : Canonical significand exponent) (positive : 0 < significand) :
    ∃ (other : ℕ) (larger : ℤ), Canonical other larger ∧
      binaryValue other larger = (significand - gapBelow significand exponent) * 2 ^ exponent := by
  obtain ⟨fits, least, greatest, full⟩ := canonical
  by_cases power : significand = 2 ^ 52 ∧ -1074 < exponent
  · refine ⟨2 ^ 53 - 1, exponent - 1, ⟨by norm_num, by omega, by omega, fun _ => by norm_num⟩, ?_⟩
    rw [binaryValue, gapBelow, if_pos power, power.1, unit_eq_double exponent]
    norm_num
    ring
  · refine ⟨significand - 1, exponent, ⟨by omega, least, greatest, ?_⟩, ?_⟩
    · intro normal
      have := full normal
      omega
    · rw [binaryValue, gapBelow, if_neg power, Nat.cast_sub positive, Nat.cast_one]

theorem gapBelow_pos (significand : ℕ) (exponent : ℤ) :
    0 < gapBelow significand exponent := by
  rw [gapBelow]
  split <;> norm_num

end Gaps

section Nearest

variable {significand : ℕ} {exponent : ℤ} {number : ℚ}

/-- Of two points the lower one is nearer up to the middle. -/
theorem abs_sub_le_iff_of_lt {low high : ℚ} (less : low < high) :
    |number - low| ≤ |number - high| ↔ number ≤ (low + high) / 2 := by
  rw [← sq_le_sq]
  constructor
  · intro nearer
    nlinarith
  · intro below
    nlinarith

theorem abs_sub_le_iff_of_gt {low high : ℚ} (less : low < high) :
    |number - high| ≤ |number - low| ↔ (low + high) / 2 ≤ number := by
  rw [← sq_le_sq]
  constructor
  · intro nearer
    nlinarith
  · intro above
    nlinarith

theorem abs_sub_eq_iff {low high : ℚ} (different : low ≠ high) :
    |number - low| = |number - high| ↔ number = (low + high) / 2 := by
  rw [← sq_eq_sq_iff_abs_eq_abs]
  constructor
  · intro same
    have product : (low - high) * (2 * number - (low + high)) = 0 := by linear_combination -same
    rcases mul_eq_zero.mp product with equal | middle
    · exact absurd (sub_eq_zero.mp equal) different
    · linarith
  · rintro rfl
    ring

theorem le_overflow (greatest : exponent ≤ 971) :
    ((2 ^ 55 - 2 : ℕ) : ℚ) * (2 : ℚ) ^ (exponent - 2) ≤ overflow := by
  have largest : (2 : ℚ) ^ (exponent - 2) ≤ 2 ^ (969 : ℤ) :=
    zpow_le_zpow_right₀ (by norm_num) (by omega)
  refine (mul_le_mul_of_nonneg_left largest (Nat.cast_nonneg _)).trans_eq ?_
  rw [overflow, show (970 : ℤ) = 969 + 1 from rfl, zpow_add_one₀ (by norm_num)]
  generalize (2 : ℚ) ^ (969 : ℤ) = unit
  push_cast
  ring

theorem isNearest_of_holds
    (nonneg : 0 ≤ number) (canonical : Canonical significand exponent)
    (holds : (around significand exponent).Holds number) :
    IsNearest number significand exponent := by
  obtain ⟨⟨lower, upper⟩, ends⟩ := (holds_around_iff nonneg).mp holds
  have bounded := (lt_of_holds_around canonical holds).trans_le (le_overflow canonical.greatest)
  have value : binaryValue significand exponent = significand * 2 ^ exponent := rfl
  refine ⟨canonical, bounded, ?_, ?_⟩
  · intro other larger canonicalOther
    rcases lt_trichotomy (binaryValue other larger) (binaryValue significand exponent) with
      less | same | greater
    · have gap := le_of_lt_binaryValue canonical canonicalOther less
      rw [abs_sub_le_iff_of_gt less]
      linarith
    · rw [same]
    · have gap := succ_le_of_lt canonical canonicalOther greater
      rw [binaryValue, Nat.cast_succ] at gap
      rw [abs_sub_le_iff_of_lt greater]
      linarith
  · intro other larger canonicalOther different tie
    rw [abs_sub_eq_iff different.symm] at tie
    apply ends
    rcases lt_or_gt_of_ne different with less | greater
    · have gap := le_of_lt_binaryValue canonical canonicalOther less
      left
      linarith
    · have gap := succ_le_of_lt canonical canonicalOther greater
      rw [binaryValue, Nat.cast_succ] at gap
      right
      linarith

/-- The next double, or the end of the range, bounds the numbers to which a double is nearest. -/
theorem IsNearest.le_middle (nearest : IsNearest number significand exponent) :
    number ≤ (significand + 1 / 2) * 2 ^ exponent ∧
      (number = (significand + 1 / 2) * 2 ^ exponent → significand % 2 = 0) := by
  obtain ⟨canonical, bounded, near, even⟩ := nearest
  have unit := unit_pos exponent
  have value : binaryValue significand exponent = significand * 2 ^ exponent := rfl
  by_cases room : significand + 1 < 2 ^ 53 ∨ exponent < 971
  · obtain ⟨other, larger, canonicalOther, next⟩ := exists_next canonical room
    have less : binaryValue significand exponent < binaryValue other larger := by
      rw [next, value]
      linarith
    have nearer := (abs_sub_le_iff_of_lt less).mp (near canonicalOther)
    refine ⟨by linarith, fun middle => even canonicalOther less.ne' ?_⟩
    rw [abs_sub_eq_iff less.ne]
    linarith
  · have fits := canonical.fits
    have greatest := canonical.greatest
    have last : significand + 1 = 2 ^ 53 ∧ exponent = 971 := by omega
    have top : (significand : ℚ) = 2 ^ 53 - 1 := by
      rw [eq_sub_iff_add_eq]
      exact_mod_cast last.1
    have limit : overflow = (significand + 1 / 2) * 2 ^ exponent := by
      rw [overflow, top, last.2, show (971 : ℤ) = 970 + 1 from rfl, zpow_add_one₀ (by norm_num)]
      generalize (2 : ℚ) ^ (970 : ℤ) = step
      norm_num
      ring
    rw [← limit]
    exact ⟨bounded.le, fun same => absurd same bounded.ne⟩

theorem IsNearest.middle_le
    (nonneg : 0 ≤ number) (nearest : IsNearest number significand exponent) :
    (significand - gapBelow significand exponent / 2) * 2 ^ exponent ≤ number ∧
      (number = (significand - gapBelow significand exponent / 2) * 2 ^ exponent →
        significand % 2 = 0) := by
  obtain ⟨canonical, -, near, even⟩ := nearest
  have unit := unit_pos exponent
  have gap := gapBelow_pos significand exponent
  have value : binaryValue significand exponent = significand * 2 ^ exponent := rfl
  rcases Nat.eq_zero_or_pos significand with rfl | positive
  · refine ⟨?_, fun _ => rfl⟩
    rw [Nat.cast_zero]
    nlinarith
  · obtain ⟨other, larger, canonicalOther, previous⟩ := exists_previous canonical positive
    have less : binaryValue other larger < binaryValue significand exponent := by
      rw [previous, value]
      nlinarith
    have nearer := (abs_sub_le_iff_of_gt less).mp (near canonicalOther)
    refine ⟨by linarith, fun middle => even canonicalOther less.ne ?_⟩
    rw [abs_sub_eq_iff less.ne']
    linarith

theorem holds_of_isNearest
    (nonneg : 0 ≤ number) (nearest : IsNearest number significand exponent) :
    (around significand exponent).Holds number := by
  obtain ⟨lower, evenLower⟩ := nearest.middle_le nonneg
  obtain ⟨upper, evenUpper⟩ := nearest.le_middle
  exact (holds_around_iff nonneg).mpr ⟨⟨lower, upper⟩, Or.rec evenLower evenUpper⟩

/-- A number rounds in one way only. -/
theorem RoundsTo.unique
    {negative : Bool} {first second : Binary} (nonneg : 0 ≤ number)
    (roundsFirst : RoundsTo negative number first)
    (roundsSecond : RoundsTo negative number second) :
    first = second := by
  cases roundsFirst with
  | infinite large =>
      cases roundsSecond with
      | infinite => rfl
      | finite nearest => exact absurd nearest.bounded (not_lt.mpr large)
  | finite nearest =>
      cases roundsSecond with
      | infinite large => exact absurd nearest.bounded (not_lt.mpr large)
      | finite other =>
          obtain ⟨rfl, rfl⟩ := eq_of_holds nearest.canonical other.canonical
            (holds_of_isNearest nonneg nearest) (holds_of_isNearest nonneg other)
          rfl

end Nearest

end MapBlocks.Decimal
