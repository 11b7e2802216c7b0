import MapBlocks.Proofs.CorrectReading

/-!
# The digits of the shortest decimal

The search for a decimal goes from coarse grids to fine ones, and starts above all
multiples that could be in the rounding interval.  So it stops at the coarsest grid
with a multiple in the interval, which has as few digits as possible, and on that
grid it takes the multiple nearest to the double.  A double can lie midway between
two multiples; there, and only there, it matters how ties are settled.
-/

namespace MapBlocks.Decimal

/-- A decimal is read as a double, it has no more digits than any other one that is, and of those
with as few digits none is nearer to the double. -/
structure IsShortest (significand : ℕ) (exponent : ℤ) (decimal : Scaled) : Prop where
  reads : IsNearest decimal.value significand exponent
  fewest : ∀ other : Scaled, IsNearest other.value significand exponent →
    (digitsOf decimal.digits).length ≤ (digitsOf other.digits).length
  closest : ∀ other : Scaled, IsNearest other.value significand exponent →
    (digitsOf other.digits).length = (digitsOf decimal.digits).length →
      |binaryValue significand exponent - decimal.value| ≤
        |binaryValue significand exponent - other.value|

/-- Of two shortest decimals the even one is taken. -/
structure IsEvenShortest (significand : ℕ) (exponent : ℤ) (decimal : Scaled) : Prop
    extends IsShortest significand exponent decimal where
  even : ∀ other, IsShortest significand exponent other → other ≠ decimal → decimal.digits % 2 = 0

namespace RoundingInterval

variable (interval : RoundingInterval)

/-- The number in the middle of an interval. -/
def center : ℚ := interval.value * (2 : ℚ) ^ interval.exponent

/-- What lies between two numbers of an interval is in it too. -/
theorem holds_of_between {x y z : ℚ} (first : interval.Holds x) (last : interval.Holds z)
    (low : x ≤ y) (high : y ≤ z) : interval.Holds y := by
  rw [Holds] at first last ⊢
  split
  · rename_i closed
    rw [if_pos closed] at first last
    exact ⟨first.1.trans low, high.trans last.2⟩
  · rename_i isOpen
    rw [if_neg isOpen] at first last
    exact ⟨first.1.trans_le low, high.trans_lt last.2⟩

section Neighbours

variable (place : ℤ)

/-- The last multiple of a power of ten that is not above the center. -/
def below : ℕ := interval.value * (interval.unitAt place).1 / (interval.unitAt place).2

theorem below_le_center :
    interval.below place * (10 : ℚ) ^ place ≤ interval.center ∧
      interval.center < (interval.below place + 1 : ℕ) * (10 : ℚ) ^ place := by
  have positive := (interval.unitAt_pos place).2
  constructor
  · apply (interval.compare_units place interval.value _).2.mp
    exact Nat.div_mul_le_self _ _
  · rw [center, ← not_le, ← (interval.compare_units place interval.value _).2, not_le]
    have ceiling := Nat.lt_div_mul_add (a := interval.value * (interval.unitAt place).1) positive
    rw [Nat.add_mul, Nat.one_mul]
    exact ceiling

/-- The distances of the center to its neighbours are in proportion to what is left over and what
is missing. -/
theorem distances :
    (interval.unitAt place).1 * (interval.center - interval.below place * (10 : ℚ) ^ place) =
        (interval.value * (interval.unitAt place).1 % (interval.unitAt place).2 : ℕ) *
          (2 : ℚ) ^ interval.exponent ∧
      (interval.unitAt place).1 *
          ((interval.below place + 1 : ℕ) * (10 : ℚ) ^ place - interval.center) =
        ((interval.unitAt place).2 -
          (interval.value * (interval.unitAt place).1 % (interval.unitAt place).2 : ℕ)) *
          (2 : ℚ) ^ interval.exponent := by
  have same := interval.unitAt_eq place
  have division := Nat.div_add_mod (interval.value * (interval.unitAt place).1)
    (interval.unitAt place).2
  rw [center, below]
  generalize (interval.unitAt place).1 = numerator at *
  generalize (interval.unitAt place).2 = denominator at *
  generalize interval.value * numerator / denominator = below at *
  generalize interval.value * numerator % denominator = rest at *
  have divided : (denominator : ℚ) * below + rest = interval.value * numerator := by
    exact_mod_cast division
  constructor
  · linear_combination (-(2 : ℚ) ^ interval.exponent) * divided - below * same
  · push_cast
    linear_combination (2 : ℚ) ^ interval.exponent * divided + (below + 1) * same

/-- The center is nearer to the lower one of its two neighbours if what is left over is at most
half a step. -/
theorem center_sub_below_le_iff :
    interval.center - interval.below place * (10 : ℚ) ^ place ≤
        (interval.below place + 1 : ℕ) * (10 : ℚ) ^ place - interval.center ↔
      2 * (interval.value * (interval.unitAt place).1 % (interval.unitAt place).2) ≤
        (interval.unitAt place).2 := by
  have positive : (0 : ℚ) < (interval.unitAt place).1 :=
    Nat.cast_pos.mpr (interval.unitAt_pos place).1
  obtain ⟨lower, upper⟩ := interval.distances place
  rw [← mul_le_mul_iff_right₀ positive, lower, upper,
    mul_le_mul_iff_left₀ (unit_pos interval.exponent), le_sub_iff_add_le, ← two_mul]
  exact_mod_cast Iff.rfl

theorem above_sub_center_le_iff :
    (interval.below place + 1 : ℕ) * (10 : ℚ) ^ place - interval.center ≤
        interval.center - interval.below place * (10 : ℚ) ^ place ↔
      (interval.unitAt place).2 ≤
        2 * (interval.value * (interval.unitAt place).1 % (interval.unitAt place).2) := by
  have positive : (0 : ℚ) < (interval.unitAt place).1 :=
    Nat.cast_pos.mpr (interval.unitAt_pos place).1
  obtain ⟨lower, upper⟩ := interval.distances place
  rw [← mul_le_mul_iff_right₀ positive, lower, upper,
    mul_le_mul_iff_left₀ (unit_pos interval.exponent), sub_le_iff_le_add, ← two_mul]
  exact_mod_cast Iff.rfl

end Neighbours

section Multiples

variable {interval} {tie : Tie} {place : ℤ} {decimal : Scaled}

/-- Whether the upper neighbour is taken if both are in the interval. -/
def goesUp (interval : RoundingInterval) (tie : Tie) (place : ℤ) : Bool :=
  let rest := interval.value * (interval.unitAt place).1 % (interval.unitAt place).2
  if 2 * rest = (interval.unitAt place).2 then
    match tie with
    | .toEven => interval.below place % 2 == 1
    | .up => true
  else (interval.unitAt place).2 < 2 * rest

theorem multipleAt?_eq :
    interval.multipleAt? tie place =
      match interval.admits place (interval.below place),
        interval.admits place (interval.below place + 1) with
      | false, false => none
      | true, false => some ⟨interval.below place, place⟩
      | false, true => some ⟨interval.below place + 1, place⟩
      | true, true =>
          some ⟨if interval.goesUp tie place then interval.below place + 1
            else interval.below place, place⟩ := rfl

/-- The neighbours of the center stand for all multiples in the interval. -/
theorem admits_neighbour (center : interval.Holds interval.center) {digits : ℕ}
    (holds : interval.Holds (digits * (10 : ℚ) ^ place)) :
    (digits ≤ interval.below place ∧ interval.admits place (interval.below place) = true) ∨
      (interval.below place + 1 ≤ digits ∧
        interval.admits place (interval.below place + 1) = true) := by
  have bounds := interval.below_le_center place
  have step : (0 : ℚ) < 10 ^ place := by positivity
  rcases Nat.lt_or_ge (interval.below place) digits with greater | less
  · have further := mul_le_mul_of_nonneg_right (Nat.cast_le (α := ℚ).mpr greater) step.le
    exact .inr ⟨greater, (interval.admits_iff place _).mpr
      (interval.holds_of_between center holds bounds.2.le further)⟩
  · have further := mul_le_mul_of_nonneg_right (Nat.cast_le (α := ℚ).mpr less) step.le
    exact .inl ⟨less, (interval.admits_iff place _).mpr
      (interval.holds_of_between holds center further bounds.1)⟩

/-- A grid without a neighbour in the interval has no multiple in it. -/
theorem not_holds_of_none (center : interval.Holds interval.center)
    (none : interval.multipleAt? tie place = none) (digits : ℕ) :
    ¬interval.Holds (digits * (10 : ℚ) ^ place) := by
  intro holds
  rw [multipleAt?_eq] at none
  rcases admits_neighbour center holds with ⟨-, admitted⟩ | ⟨-, admitted⟩
  · rw [admitted] at none
    split at none <;> simp_all
  · rw [admitted] at none
    split at none <;> simp_all

theorem above_nearer_of_goesUp (up : interval.goesUp tie place = true) :
    (interval.below place + 1 : ℕ) * (10 : ℚ) ^ place - interval.center ≤
      interval.center - interval.below place * (10 : ℚ) ^ place := by
  apply (interval.above_sub_center_le_iff place).mpr
  simp only [goesUp] at up
  split at up
  · omega
  · rw [decide_eq_true_eq] at up
    exact up.le

theorem below_nearer_of_goesUp (down : interval.goesUp tie place = false) :
    interval.center - interval.below place * (10 : ℚ) ^ place ≤
      (interval.below place + 1 : ℕ) * (10 : ℚ) ^ place - interval.center := by
  apply (interval.center_sub_below_le_iff place).mpr
  simp only [goesUp] at down
  split at down
  · omega
  · rw [decide_eq_false_iff_not, not_lt] at down
    exact down

/-- The nearer neighbour is taken, or the only one in the interval. -/
theorem eq_of_multipleAt? (found : interval.multipleAt? tie place = some decimal) :
    (decimal = ⟨interval.below place, place⟩ ∧
      (interval.admits place (interval.below place + 1) = true →
        interval.center - interval.below place * (10 : ℚ) ^ place ≤
          (interval.below place + 1 : ℕ) * (10 : ℚ) ^ place - interval.center)) ∨
    (decimal = ⟨interval.below place + 1, place⟩ ∧
      (interval.admits place (interval.below place) = true →
        (interval.below place + 1 : ℕ) * (10 : ℚ) ^ place - interval.center ≤
          interval.center - interval.below place * (10 : ℚ) ^ place)) := by
  rw [multipleAt?_eq] at found
  split at found
  · cases found
  · rename_i admitted missing
    cases found
    exact .inl ⟨rfl, fun above => by rw [missing] at above; cases above⟩
  · rename_i missing admitted
    cases found
    exact .inr ⟨rfl, fun below => by rw [missing] at below; cases below⟩
  · cases found
    cases up : interval.goesUp tie place with
    | true => exact .inr ⟨rfl, fun _ => interval.above_nearer_of_goesUp up⟩
    | false => exact .inl ⟨rfl, fun _ => interval.below_nearer_of_goesUp up⟩

/-- Of the multiples in the interval none is nearer than the one that is found. -/
theorem closest_of_multipleAt? (center : interval.Holds interval.center)
    (found : interval.multipleAt? tie place = some decimal) :
    decimal.exponent = place ∧ ∀ digits : ℕ, interval.Holds (digits * (10 : ℚ) ^ place) →
      |interval.center - decimal.value| ≤ |interval.center - digits * (10 : ℚ) ^ place| := by
  have bounds := interval.below_le_center place
  have step : (0 : ℚ) < 10 ^ place := by positivity
  have ordered {first second : ℕ} (le : first ≤ second) :
      first * (10 : ℚ) ^ place ≤ second * (10 : ℚ) ^ place :=
    mul_le_mul_of_nonneg_right (Nat.cast_le.mpr le) step.le
  rcases eq_of_multipleAt? found with ⟨rfl, nearer⟩ | ⟨rfl, nearer⟩
  · refine ⟨rfl, fun digits holds => ?_⟩
    rw [Scaled.value, abs_of_nonneg (sub_nonneg.mpr bounds.1)]
    rcases admits_neighbour center holds with ⟨less, -⟩ | ⟨greater, admitted⟩
    · exact (sub_le_sub_left (ordered less) _).trans (le_abs_self _)
    · rw [abs_sub_comm]
      exact (nearer admitted).trans
        ((sub_le_sub_right (ordered greater) _).trans (le_abs_self _))
  · refine ⟨rfl, fun digits holds => ?_⟩
    rw [Scaled.value, abs_sub_comm, abs_of_nonneg (sub_nonneg.mpr bounds.2.le)]
    rcases admits_neighbour center holds with ⟨less, admitted⟩ | ⟨greater, -⟩
    · exact (nearer admitted).trans
        ((sub_le_sub_left (ordered less) _).trans (le_abs_self _))
    · rw [abs_sub_comm]
      exact (sub_le_sub_right (ordered greater) _).trans (le_abs_self _)

/-- The center lies midway between two multiples that are as near as each other. -/
theorem add_of_near {first second : ℕ} (apart : first ≠ second)
    (near : |interval.center - first * (10 : ℚ) ^ place| =
      |interval.center - second * (10 : ℚ) ^ place|) :
    ((first + second : ℕ) : ℚ) * (10 : ℚ) ^ place = 2 * interval.center ∧
      (first + second = 2 * interval.below place ∨
        first + second = 2 * interval.below place + 1) := by
  have step : (0 : ℚ) < 10 ^ place := by positivity
  obtain ⟨lower, upper⟩ := interval.below_le_center place
  have twice : ((first + second : ℕ) : ℚ) * (10 : ℚ) ^ place = 2 * interval.center := by
    rcases abs_eq_abs.mp near with same | opposite
    · have equal : first * (10 : ℚ) ^ place = second * (10 : ℚ) ^ place := by linarith
      exact absurd (Nat.cast_injective (mul_right_cancel₀ step.ne' equal)) apart
    · push_cast
      linarith
  have least : ((2 * interval.below place : ℕ) : ℚ) ≤ (first + second : ℕ) := by
    refine le_of_mul_le_mul_right ?_ step
    push_cast at twice ⊢
    linarith
  have most : ((first + second : ℕ) : ℚ) < (2 * (interval.below place + 1) : ℕ) := by
    refine lt_of_mul_lt_mul_right ?_ step.le
    push_cast at upper twice ⊢
    linarith
  have bounds : 2 * interval.below place ≤ first + second := by exact_mod_cast least
  have strict : first + second < 2 * (interval.below place + 1) := by exact_mod_cast most
  exact ⟨twice, by omega⟩

theorem goesUp_of_midway
    (midway : ((2 * interval.below place + 1 : ℕ) : ℚ) * (10 : ℚ) ^ place = 2 * interval.center) :
    interval.goesUp .up place = true ∧
      interval.goesUp .toEven place = (interval.below place % 2 == 1) := by
  push_cast at midway
  have down : interval.center - interval.below place * (10 : ℚ) ^ place ≤
      (interval.below place + 1 : ℕ) * (10 : ℚ) ^ place - interval.center := by
    push_cast
    linarith
  have up : (interval.below place + 1 : ℕ) * (10 : ℚ) ^ place - interval.center ≤
      interval.center - interval.below place * (10 : ℚ) ^ place := by
    push_cast
    linarith
  have half := Nat.le_antisymm ((interval.center_sub_below_le_iff place).mp down)
    ((interval.above_sub_center_le_iff place).mp up)
  exact ⟨if_pos half, if_pos half⟩

theorem digits_of_both (found : interval.multipleAt? tie place = some decimal)
    (below : interval.admits place (interval.below place) = true)
    (above : interval.admits place (interval.below place + 1) = true) :
    decimal.digits =
      if interval.goesUp tie place then interval.below place + 1 else interval.below place := by
  rw [multipleAt?_eq, below, above] at found
  cases found
  rfl

section Rival

variable (center : interval.Holds interval.center)
  (found : interval.multipleAt? tie place = some decimal) {digits : ℕ}
  (holds : interval.Holds (digits * (10 : ℚ) ^ place)) (apart : digits ≠ decimal.digits)
  (near : |interval.center - digits * (10 : ℚ) ^ place| =
    |interval.center - decimal.digits * (10 : ℚ) ^ place|)

include center found apart near

/-- A multiple that is as near as the one that is found is the other neighbour of the center, which
lies midway between the two. -/
theorem midway_of_rival :
    digits + decimal.digits = 2 * interval.below place + 1 ∧
      ((2 * interval.below place + 1 : ℕ) : ℚ) * (10 : ℚ) ^ place = 2 * interval.center := by
  obtain ⟨twice, sum⟩ := add_of_near apart near
  have odd : digits + decimal.digits = 2 * interval.below place + 1 := by
    refine sum.resolve_left fun even => ?_
    rcases eq_of_multipleAt? found with ⟨rfl, -⟩ | ⟨rfl, nearer⟩
    · dsimp only at apart even
      omega
    · -- The center would be the lower neighbour itself, and that would be found.
      rw [even] at twice
      push_cast at twice nearer
      have central : interval.below place * (10 : ℚ) ^ place = interval.center := by linarith
      have admitted : interval.admits place (interval.below place) = true := by
        rw [interval.admits_iff, central]
        exact center
      have closer := nearer admitted
      have step : (0 : ℚ) < 10 ^ place := by positivity
      linarith
  rw [odd] at twice
  exact ⟨odd, twice⟩

include holds

/-- One of the two is odd, and how ties are settled says which of the two is found. -/
theorem rival_of_multipleAt? :
    (digits + decimal.digits) % 2 = 1 ∧ (tie = .up → digits + 1 = decimal.digits) ∧
      (tie = .toEven → decimal.digits % 2 = 0) := by
  obtain ⟨sum, midway⟩ := midway_of_rival center found apart near
  obtain ⟨up, even⟩ := goesUp_of_midway midway
  have admitted := (interval.admits_iff place digits).mpr holds
  have holdsFound := holds_of_multipleAt? interval found
  have taken : decimal.digits =
      if interval.goesUp tie place then interval.below place + 1 else interval.below place := by
    rcases eq_of_multipleAt? found with ⟨rfl, -⟩ | ⟨rfl, -⟩
    · obtain rfl : digits = interval.below place + 1 := by dsimp only at sum; omega
      have admittedFound := (interval.admits_iff place (interval.below place)).mpr holdsFound
      exact digits_of_both found admittedFound admitted
    · obtain rfl : digits = interval.below place := by dsimp only at sum; omega
      have admittedFound := (interval.admits_iff place (interval.below place + 1)).mpr holdsFound
      exact digits_of_both found admitted admittedFound
  refine ⟨by omega, ?_, ?_⟩
  · rintro rfl
    rw [up, if_pos rfl] at taken
    omega
  · rintro rfl
    rw [even] at taken
    split at taken
    · rename_i lowerOdd
      rw [beq_iff_eq] at lowerOdd
      omega
    · rename_i lowerEven
      rw [beq_iff_eq] at lowerEven
      omega

end Rival

end Multiples

section Search

variable {significand : ℕ} {exponent : ℤ}

theorem center_around (significand : ℕ) (exponent : ℤ) :
    (around significand exponent).center = binaryValue significand exponent := by
  have four : (2 : ℚ) ^ (exponent - 2) * 4 = 2 ^ exponent := by
    rw [zpow_sub₀ (by norm_num)]
    norm_num
  simp only [center, around, binaryValue, Nat.cast_mul, Nat.cast_ofNat, ← four]
  ring

theorem holds_center (positive : 0 < significand) (exponent : ℤ) :
    (around significand exponent).Holds (around significand exponent).center := by
  have unit := unit_pos (around significand exponent).exponent
  have below : (around significand exponent).lower < (around significand exponent).value := by
    simp only [around]
    split <;> omega
  have above : (around significand exponent).value < (around significand exponent).upper := by
    simp only [around]
    omega
  have lower := mul_lt_mul_of_pos_right (Nat.cast_lt (α := ℚ).mpr below) unit
  have upper := mul_lt_mul_of_pos_right (Nat.cast_lt (α := ℚ).mpr above) unit
  rw [Holds, center]
  split
  · exact ⟨lower.le, upper.le⟩
  · exact ⟨lower, upper⟩

/-- A power of two with this exponent is below the power of ten after the estimate. -/
theorem two_zpow_le_ten_zpow {bits place : ℤ} (small : -1100 ≤ bits) (large : bits ≤ 1100)
    (above : bits * 1233 / 4096 + 2 ≤ place) : (2 : ℚ) ^ bits ≤ 10 ^ place := by
  rcases le_or_gt 0 bits with nonneg | negative
  · obtain ⟨count, rfl⟩ := Int.eq_ofNat_of_zero_le nonneg
    obtain ⟨zeros, rfl⟩ := Int.eq_ofNat_of_zero_le (show 0 ≤ place by omega)
    have powers : 2 ^ count ≤ 10 ^ zeros :=
      pow_le_pow_of_rate (by decide) (by decide : 2 ^ 93 ≤ 10 ^ 28) (by decide) (by omega)
    rw [zpow_natCast, zpow_natCast]
    exact_mod_cast powers
  · rcases le_or_gt 0 place with up | down
    · exact (zpow_le_one_of_nonpos₀ (by norm_num) negative.le).trans
        (one_le_zpow₀ (by norm_num) up)
    · obtain ⟨count, rfl⟩ := Int.eq_negSucc_of_lt_zero negative
      obtain ⟨zeros, rfl⟩ := Int.eq_negSucc_of_lt_zero down
      have powers : 10 ^ (zeros + 1) ≤ 2 ^ (count + 1) :=
        pow_le_pow_of_rate (by decide) (by decide : 10 ^ 59 ≤ 2 ^ 196) (by decide) (by omega)
      rw [zpow_negSucc, zpow_negSucc, inv_le_inv₀ (by positivity) (by positivity)]
      exact_mod_cast powers

variable (canonical : Canonical significand exponent)

include canonical

/-- The search starts above all numbers of the interval. -/
theorem upper_lt_of_topPlace_lt {place : ℤ}
    (above : (around significand exponent).topPlace < place) :
    (around significand exponent).upper * (2 : ℚ) ^ (around significand exponent).exponent <
      (10 : ℚ) ^ place := by
  have fits := canonical.fits
  have least := canonical.least
  have greatest := canonical.greatest
  have log : Nat.log2 (4 * significand + 2) < 55 := by
    rw [Nat.log2_lt (by omega)]
    omega
  have leading : ((4 * significand + 2 : ℕ) : ℚ) < 2 ^ (Nat.log2 (4 * significand + 2) + 1) := by
    exact_mod_cast Nat.lt_log2_self
  have unit := unit_pos (exponent - 2)
  simp only [topPlace, around] at above ⊢
  calc ((4 * significand + 2 : ℕ) : ℚ) * 2 ^ (exponent - 2)
      < 2 ^ (Nat.log2 (4 * significand + 2) + 1) * 2 ^ (exponent - 2) :=
        mul_lt_mul_of_pos_right leading unit
    _ = 2 ^ ((Nat.log2 (4 * significand + 2) : ℤ) + (exponent - 2) + 1) := by
        rw [← zpow_natCast, ← zpow_add₀ (by norm_num)]
        congr 1
        push_cast
        ring
    _ ≤ 10 ^ place := two_zpow_le_ten_zpow (by omega) (by omega) (by omega)

theorem not_holds_of_topPlace_lt (positive : 0 < significand) {place : ℤ}
    (above : (around significand exponent).topPlace < place) (digits : ℕ) :
    ¬(around significand exponent).Holds (digits * (10 : ℚ) ^ place) := by
  intro holds
  have decimal : (around significand exponent).Holds (Scaled.value ⟨digits, place⟩) := holds
  have nonzero : 0 < digits := digits_pos_of_holds positive decimal
  have step : (10 : ℚ) ^ place ≤ digits * 10 ^ place :=
    le_mul_of_one_le_left (by positivity) (by exact_mod_cast nonzero)
  have bound := (le_of_holds holds).2
  exact absurd (step.trans bound) (not_le.mpr (upper_lt_of_topPlace_lt canonical above))

omit canonical in
/-- The grids are tried from coarse to fine. -/
theorem mem_before_of_lt {interval : RoundingInterval} {before after : List ℤ} {place coarser : ℤ}
    (listed : interval.places = before ++ place :: after) (greater : place < coarser)
    (within : coarser ≤ interval.topPlace) : coarser ∈ before := by
  have descending : interval.places.Pairwise (· > ·) := by
    refine List.pairwise_map.mpr (List.pairwise_lt_range.imp ?_)
    omega
  have tried : place ∈ interval.places := by
    rw [listed]
    exact List.mem_append_right _ List.mem_cons_self
  obtain ⟨step, inRange, rfl⟩ := List.mem_map.mp tried
  have member : coarser ∈ interval.places :=
    List.mem_map.mpr ⟨(interval.topPlace - coarser).toNat, by simp at *; omega, by omega⟩
  rw [listed] at member descending
  refine (List.mem_append.mp member).resolve_right fun later => ?_
  rcases List.mem_cons.mp later with same | finer
  · omega
  · have smaller := (List.pairwise_cons.mp (List.pairwise_append.mp descending).2.1).1 _ finer
    omega

/-- The search finds the nearest multiple on the coarsest grid that has one. -/
theorem shortest_spec (positive : 0 < significand) (tie : Tie) :
    ∃ place, (around significand exponent).multipleAt? tie place =
        some ((around significand exponent).shortest tie) ∧
      ∀ coarser > place, ∀ digits : ℕ,
        ¬(around significand exponent).Holds (digits * (10 : ℚ) ^ coarser) := by
  obtain ⟨decimal, reached⟩ := exists_search canonical positive tie
  obtain ⟨before, place, after, listed, found, missing⟩ := List.findSome?_eq_some_iff.mp reached
  refine ⟨place, by rw [shortest, reached, found, Option.getD_some], ?_⟩
  intro coarser greater
  rcases lt_or_ge (around significand exponent).topPlace coarser with above | within
  · exact not_holds_of_topPlace_lt canonical positive above
  · exact not_holds_of_none (holds_center positive exponent)
      (missing coarser (mem_before_of_lt listed greater within))

end Search

end RoundingInterval

section Digits

open RoundingInterval

variable {significand : ℕ} {exponent : ℤ}

namespace Scaled

theorem value_nonneg (decimal : Scaled) : 0 ≤ decimal.value := by
  rw [Scaled.value]
  positivity

/-- Where the point stands, counted from the start of the digits. -/
def point (decimal : Scaled) : ℤ := decimal.exponent + (digitsOf decimal.digits).length

theorem eq_of_digitsOf {first second : Scaled}
    (digits : digitsOf first.digits = digitsOf second.digits) (point : first.point = second.point) :
    first = second := by
  obtain ⟨firstDigits, firstExponent⟩ := first
  obtain ⟨secondDigits, secondExponent⟩ := second
  have same := congrArg (valueOf 10) digits
  rw [valueOf_digitsOf, valueOf_digitsOf] at same
  cases same
  rw [Scaled.point, Scaled.point, add_left_inj] at point
  cases point
  rfl

/-- The place of the point tells the size of a decimal. -/
theorem value_bounds {decimal : Scaled} (positive : 0 < decimal.digits) :
    (10 : ℚ) ^ (decimal.point - 1) ≤ decimal.value ∧ decimal.value < 10 ^ decimal.point := by
  have digits := digitsOf_bounds positive
  have step : (0 : ℚ) < 10 ^ decimal.exponent := by positivity
  obtain ⟨count, length⟩ : ∃ count, (digitsOf decimal.digits).length = count + 1 :=
    Nat.exists_eq_add_one.mpr (List.length_pos_of_ne_nil (digitsOf_ne_nil _))
  rw [length, Nat.add_sub_cancel] at digits
  have shift (zeros : ℕ) :
      (10 : ℚ) ^ (zeros + decimal.exponent) = 10 ^ zeros * 10 ^ decimal.exponent := by
    rw [zpow_add₀ (by norm_num), zpow_natCast]
  have first : decimal.point - 1 = count + decimal.exponent := by
    rw [point, length]
    omega
  have last : decimal.point = (count + 1 : ℕ) + decimal.exponent := by
    rw [point, length]
    omega
  constructor
  · rw [first, shift]
    exact mul_le_mul_of_nonneg_right (by exact_mod_cast digits.1) step.le
  · rw [last, shift]
    exact mul_lt_mul_of_pos_right (by exact_mod_cast digits.2) step

/-- One digit on a finer grid is less than a power of ten by a tenth at least. -/
theorem ten_mul_value_le {decimal : Scaled} (positive : 0 < decimal.digits)
    (single : (digitsOf decimal.digits).length = 1) {place : ℤ}
    (finer : decimal.exponent < place) : 10 * decimal.value ≤ 9 * 10 ^ place := by
  have bounds := digitsOf_bounds positive
  rw [single] at bounds
  have digit : (decimal.digits : ℚ) ≤ 9 := by exact_mod_cast Nat.le_of_lt_succ bounds.2
  have step : (10 : ℚ) * 10 ^ decimal.exponent ≤ 10 ^ place := by
    rw [← zpow_one_add₀ (by norm_num)]
    exact zpow_le_zpow_right₀ (by norm_num) (by omega)
  have unit : (0 : ℚ) < 10 ^ decimal.exponent := by positivity
  calc 10 * decimal.value = decimal.digits * (10 * 10 ^ decimal.exponent) := by
        rw [Scaled.value]
        ring
    _ ≤ 9 * 10 ^ place := by gcongr

end Scaled

/-- Between two decimals whose points are apart there is a power of ten, which has one digit. -/
theorem holds_power {lesser greater : Scaled} (positive : 0 < significand)
    (holdsLesser : (around significand exponent).Holds lesser.value)
    (holdsGreater : (around significand exponent).Holds greater.value) {place : ℤ}
    (above : lesser.point ≤ place) (below : place < greater.point) :
    (around significand exponent).Holds (Scaled.value ⟨1, place⟩) := by
  have lesserBounds := Scaled.value_bounds (digits_pos_of_holds positive holdsLesser)
  have greaterBounds := Scaled.value_bounds (digits_pos_of_holds positive holdsGreater)
  have power : Scaled.value ⟨1, place⟩ = 10 ^ place := by rw [Scaled.value, Nat.cast_one, one_mul]
  rw [power]
  refine holds_of_between _ holdsLesser holdsGreater ?_ ?_
  · exact lesserBounds.2.le.trans (zpow_le_zpow_right₀ (by norm_num) above)
  · exact (zpow_le_zpow_right₀ (by norm_num) (by omega)).trans greaterBounds.1

/-- On the coarsest grid with a multiple in the interval, the multiples have the fewest digits: if
another decimal had fewer, there would be a power of ten in between, on a coarser grid. -/
theorem length_le_of_coarsest {decimal other : Scaled} (positive : 0 < significand)
    (holds : (around significand exponent).Holds decimal.value)
    (holdsOther : (around significand exponent).Holds other.value)
    (coarsest : ∀ coarser > decimal.exponent, ∀ digits : ℕ,
      ¬(around significand exponent).Holds (digits * (10 : ℚ) ^ coarser)) :
    (digitsOf decimal.digits).length ≤ (digitsOf other.digits).length := by
  have finer : other.exponent ≤ decimal.exponent := by
    by_contra coarser
    exact coarsest _ (lt_of_not_ge coarser) other.digits holdsOther
  by_contra fewer
  have nonempty : 0 < (digitsOf other.digits).length :=
    List.length_pos_of_ne_nil (digitsOf_ne_nil _)
  refine coarsest (decimal.point - 1) (by rw [Scaled.point]; omega) 1 ?_
  refine holds_power positive holdsOther holds ?_ (by omega)
  rw [Scaled.point, Scaled.point]
  omega

/-- The ends of an interval are at most half a unit from its double. -/
theorem near_of_holds {number : ℚ} (nonneg : 0 ≤ number)
    (holds : (around significand exponent).Holds number) :
    (significand - 1 / 2) * (2 : ℚ) ^ exponent ≤ number ∧
      number ≤ (significand + 1 / 2) * (2 : ℚ) ^ exponent := by
  obtain ⟨⟨lower, upper⟩, -⟩ := (holds_around_iff nonneg).mp holds
  have gap : gapBelow significand exponent ≤ 1 := by
    unfold gapBelow
    split <;> norm_num
  have unit := unit_pos exponent
  exact ⟨le_trans (mul_le_mul_of_nonneg_right (by linarith) unit.le) lower, upper⟩

/-- The power of ten that is close to the double after the least one. -/
theorem power_bounds :
    101 / 50 * (2 : ℚ) ^ (-1074 : ℤ) ≤ 10 ^ (-323 : ℤ) ∧
      (10 : ℚ) ^ (-323 : ℤ) ≤ 203 / 100 * 2 ^ (-1074 : ℤ) := by
  have least : 101 * 10 ^ 323 ≤ 50 * 2 ^ 1074 := by decide +kernel
  have most : 100 * 2 ^ 1074 ≤ 203 * 10 ^ 323 := by decide +kernel
  have leastCast : (101 : ℚ) * 10 ^ 323 ≤ 50 * 2 ^ 1074 := by exact_mod_cast least
  have mostCast : (100 : ℚ) * 2 ^ 1074 ≤ 203 * 10 ^ 323 := by exact_mod_cast most
  have two : (2 : ℚ) ^ (-1074 : ℤ) = (2 ^ 1074)⁻¹ := zpow_neg_coe_of_pos 2 (by decide)
  have ten : (10 : ℚ) ^ (-323 : ℤ) = (10 ^ 323)⁻¹ := zpow_neg_coe_of_pos 10 (by decide)
  have twoPositive : (0 : ℚ) < 2 ^ 1074 := by positivity
  have tenPositive : (0 : ℚ) < 10 ^ 323 := by positivity
  rw [two, ten, ← div_eq_mul_inv, ← div_eq_mul_inv, ← one_div]
  generalize (2 : ℚ) ^ 1074 = binary at *
  generalize (10 : ℚ) ^ 323 = decimal at *
  constructor
  · rw [div_le_div_iff₀ twoPositive tenPositive]
    linarith
  · rw [div_le_div_iff₀ tenPositive twoPositive]
    linarith

/-- Only one interval is so wide for its numbers that it holds a power of ten and a number that is
less by a tenth. -/
theorem eq_of_wide {lesser greater : ℚ} {place : ℤ} (canonical : Canonical significand exponent)
    (positive : 0 < significand) (nonneg : 0 ≤ lesser)
    (holdsLesser : (around significand exponent).Holds lesser)
    (holdsGreater : (around significand exponent).Holds greater)
    (below : 10 * lesser ≤ 9 * 10 ^ place) (above : (10 : ℚ) ^ place ≤ greater) :
    significand = 2 ∧ exponent = -1074 ∧ place = -323 := by
  have power : (0 : ℚ) < 10 ^ place := by positivity
  have unit := unit_pos exponent
  have lower := (near_of_holds nonneg holdsLesser).1
  have upper := (near_of_holds (power.le.trans above) holdsGreater).2
  have small : significand ≤ 9 := by
    by_contra large
    have cast : (10 : ℚ) ≤ significand := by exact_mod_cast not_le.mp large
    nlinarith
  have least : exponent = -1074 := by
    by_contra other
    have full := canonical.full (lt_of_le_of_ne canonical.least (Ne.symm other))
    omega
  subst least
  have one : (1 : ℚ) ≤ significand := by exact_mod_cast positive
  have nine : (significand : ℚ) ≤ 9 := by exact_mod_cast small
  obtain ⟨low, high⟩ := power_bounds
  obtain rfl : place = -323 := by
    rcases lt_trichotomy place (-323) with less | same | greater
    · have next : (10 : ℚ) * 10 ^ place ≤ 10 ^ (-323 : ℤ) := by
        rw [← zpow_one_add₀ (by norm_num)]
        exact zpow_le_zpow_right₀ (by norm_num) (by omega)
      nlinarith
    · exact same
    · have next : (10 : ℚ) * 10 ^ (-323 : ℤ) ≤ 10 ^ place := by
        rw [← zpow_one_add₀ (by norm_num)]
        exact zpow_le_zpow_right₀ (by norm_num) (by omega)
      nlinarith
  refine ⟨le_antisymm ?_ ?_, rfl, rfl⟩
  · by_contra large
    have three : (3 : ℚ) ≤ significand := by exact_mod_cast not_le.mp large
    nlinarith
  · by_contra less
    have single : (significand : ℚ) ≤ 1 := by exact_mod_cast Nat.le_of_lt_succ (not_le.mp less)
    nlinarith

/-- Of two decimals with as few digits the one on the coarser grid is nearer.  They have one digit
each, so that the interval is wide for its numbers. -/
theorem nearer_of_coarser {coarse fine : Scaled} (canonical : Canonical significand exponent)
    (positive : 0 < significand)
    (holds : (around significand exponent).Holds coarse.value)
    (holdsFine : (around significand exponent).Holds fine.value)
    (finer : fine.exponent < coarse.exponent)
    (single : (digitsOf fine.digits).length = 1) :
    |binaryValue significand exponent - coarse.value| <
      |binaryValue significand exponent - fine.value| := by
  have coarsePositive : 1 ≤ coarse.digits := digits_pos_of_holds positive holds
  have above : (10 : ℚ) ^ coarse.exponent ≤ coarse.value :=
    le_mul_of_one_le_left (by positivity) (by exact_mod_cast coarsePositive)
  have below : 10 * fine.value ≤ 9 * 10 ^ coarse.exponent :=
    Scaled.ten_mul_value_le (digits_pos_of_holds positive holdsFine) single finer
  obtain ⟨rfl, rfl, place⟩ :=
    eq_of_wide canonical positive fine.value_nonneg holdsFine holds below above
  have upper := (near_of_holds coarse.value_nonneg holds).2
  have value : coarse.value = coarse.digits * 10 ^ (-323 : ℤ) := by rw [Scaled.value, place]
  have unit := unit_pos (-1074)
  obtain ⟨low, high⟩ := power_bounds
  rw [binaryValue]
  rw [place] at below
  rw [value] at upper ⊢
  generalize (10 : ℚ) ^ (-323 : ℤ) = power at *
  generalize (2 : ℚ) ^ (-1074 : ℤ) = least at *
  have one : coarse.digits = 1 := by
    refine le_antisymm ?_ coarsePositive
    by_contra more
    have two : (2 : ℚ) ≤ coarse.digits := by exact_mod_cast not_le.mp more
    push_cast at upper
    nlinarith
  rw [one]
  push_cast
  have close : |2 * least - 1 * power| ≤ 3 / 100 * least := abs_le.mpr ⟨by linarith, by linarith⟩
  have far : 17 / 100 * least ≤ 2 * least - fine.value := by linarith
  calc |2 * least - 1 * power| ≤ 3 / 100 * least := close
    _ < 17 / 100 * least := by linarith
    _ ≤ 2 * least - fine.value := far
    _ ≤ |2 * least - fine.value| := le_abs_self _

/-- Decimals of different exponents with as few digits as possible have one digit. -/
theorem length_eq_one_of_finer {coarse fine : Scaled} (canonical : Canonical significand exponent)
    (positive : 0 < significand)
    (holds : (around significand exponent).Holds coarse.value)
    (holdsFine : (around significand exponent).Holds fine.value)
    (finer : fine.exponent < coarse.exponent)
    (length : (digitsOf fine.digits).length = (digitsOf coarse.digits).length)
    (fewest : ∀ other : Scaled, IsNearest other.value significand exponent →
      (digitsOf coarse.digits).length ≤ (digitsOf other.digits).length) :
    (digitsOf fine.digits).length = 1 := by
  have apart : fine.point < coarse.point := by
    rw [Scaled.point, Scaled.point, length]
    omega
  have power := holds_power positive holdsFine holds le_rfl apart
  have single : (digitsOf coarse.digits).length ≤ (digitsOf 1).length :=
    fewest ⟨1, fine.point⟩ (isNearest_of_holds (Scaled.value_nonneg _) canonical power)
  have one : (digitsOf 1).length = 1 := by decide
  have nonempty : 0 < (digitsOf fine.digits).length :=
    List.length_pos_of_ne_nil (digitsOf_ne_nil _)
  omega

section Found

variable (canonical : Canonical significand exponent) (positive : 0 < significand) (tie : Tie)

include canonical positive

/-- The decimal that is found has the digits that are asked for. -/
theorem isShortest_shortest :
    IsShortest significand exponent ((around significand exponent).shortest tie) := by
  have holds := holds_shortest canonical positive tie
  obtain ⟨place, found, coarsest⟩ := shortest_spec canonical positive tie
  obtain ⟨rfl, closest⟩ := closest_of_multipleAt? (holds_center positive exponent) found
  have fewest : ∀ other : Scaled, IsNearest other.value significand exponent →
      (digitsOf ((around significand exponent).shortest tie).digits).length ≤
        (digitsOf other.digits).length := fun other nearest =>
    length_le_of_coarsest positive holds (holds_of_isNearest other.value_nonneg nearest) coarsest
  refine ⟨isNearest_of_holds (Scaled.value_nonneg _) canonical holds, fewest, ?_⟩
  intro other nearest length
  have holdsOther := holds_of_isNearest other.value_nonneg nearest
  rcases lt_trichotomy other.exponent ((around significand exponent).shortest tie).exponent
    with finer | same | coarser
  · have single := length_eq_one_of_finer canonical positive holds holdsOther finer length fewest
    exact (nearer_of_coarser canonical positive holds holdsOther finer single).le
  · rw [← center_around]
    have nearer := closest other.digits
    rw [← same] at nearer
    exact nearer holdsOther
  · exact absurd holdsOther (coarsest _ coarser other.digits)

/-- Another shortest decimal is the neighbour on the other side of the double: one of the two is
odd, and the one that is taken is the greater one if ties go up and the even one if they go
there. -/
theorem rival_shortest {decimal other : Scaled}
    (taken : (around significand exponent).shortest tie = decimal)
    (rival : IsShortest significand exponent other) (different : other ≠ decimal) :
    other.exponent = decimal.exponent ∧ (other.digits + decimal.digits) % 2 = 1 ∧
      (tie = .up → other.digits + 1 = decimal.digits) ∧
      (tie = .toEven → decimal.digits % 2 = 0) := by
  have shortest := isShortest_shortest canonical positive tie
  have holds := holds_shortest canonical positive tie
  obtain ⟨place, found, coarsest⟩ := shortest_spec canonical positive tie
  rw [taken] at shortest holds found
  obtain ⟨rfl, -⟩ := closest_of_multipleAt? (holds_center positive exponent) found
  have holdsOther := holds_of_isNearest other.value_nonneg rival.reads
  have length : (digitsOf other.digits).length = (digitsOf decimal.digits).length :=
    le_antisymm (rival.fewest _ shortest.reads) (shortest.fewest _ rival.reads)
  have near : |binaryValue significand exponent - other.value| =
      |binaryValue significand exponent - decimal.value| :=
    le_antisymm (rival.closest _ shortest.reads length.symm) (shortest.closest _ rival.reads length)
  rcases lt_trichotomy other.exponent decimal.exponent with finer | same | coarser
  · have single :=
      length_eq_one_of_finer canonical positive holds holdsOther finer length shortest.fewest
    have nearer := nearer_of_coarser canonical positive holds holdsOther finer single
    exact absurd near.symm nearer.ne
  · have apart : other.digits ≠ decimal.digits := by
      intro equal
      cases other
      cases decimal
      cases same
      cases equal
      exact different rfl
    rw [Scaled.value, Scaled.value, ← center_around, same] at near
    rw [Scaled.value, same] at holdsOther
    exact ⟨same, rival_of_multipleAt? (holds_center positive exponent) found holdsOther apart near⟩
  · exact absurd holdsOther (coarsest _ coarser other.digits)

/-- Where ties go up, no shortest decimal is greater than the one that is taken. -/
theorem value_le_shortest_up {other : Scaled} (rival : IsShortest significand exponent other) :
    other.value ≤ ((around significand exponent).shortest .up).value := by
  by_cases different : other = (around significand exponent).shortest .up
  · rw [different]
  · obtain ⟨same, -, lower, -⟩ := rival_shortest canonical positive .up rfl rival different
    rw [Scaled.value, Scaled.value, same, ← lower rfl]
    exact mul_le_mul_of_nonneg_right (by exact_mod_cast Nat.le_succ _) (by positivity)

theorem isEvenShortest_shortest_toEven :
    IsEvenShortest significand exponent ((around significand exponent).shortest .toEven) where
  toIsShortest := isShortest_shortest canonical positive .toEven
  even _ rival different :=
    (rival_shortest canonical positive .toEven rfl rival different).2.2.2 rfl

/-- There is one even shortest decimal. -/
theorem IsEvenShortest.eq_shortest {decimal : Scaled}
    (even : IsEvenShortest significand exponent decimal) :
    decimal = (around significand exponent).shortest .toEven := by
  by_contra different
  have shortest := isShortest_shortest canonical positive .toEven
  have first := even.even _ shortest (Ne.symm different)
  obtain ⟨-, odd, -, second⟩ :=
    rival_shortest canonical positive .toEven rfl even.toIsShortest different
  have both := second rfl
  omega

end Found

end Digits

end MapBlocks.Decimal
