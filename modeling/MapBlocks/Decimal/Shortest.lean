import MapBlocks.Decimal.Binary

/-!
# The shortest decimal that reads back

Of the decimals that round to a double, the one with the fewest digits is a multiple of the
largest power of ten that has a multiple in the rounding interval. Of two such multiples the
nearer one is taken; a `Tie` settles the case of equal distance.
-/

namespace MapBlocks.Decimal

/-- Which of two equally near decimals is taken. -/
inductive Tie where
  | toEven
  | up
  deriving DecidableEq, Repr

/-- The positive decimal `digits · 10 ^ exponent`. -/
structure Scaled where
  digits : Nat
  exponent : Int
  deriving DecidableEq, Repr

namespace RoundingInterval

variable (interval : RoundingInterval)

/-- One unit of the interval, divided by `10 ^ place`, as a fraction. -/
def unitAt (place : Int) : Nat × Nat :=
  (Nat.pow 2 interval.exponent.toNat * Nat.pow 10 (-place).toNat,
    Nat.pow 2 (-interval.exponent).toNat * Nat.pow 10 place.toNat)

/-- Whether `digits · 10 ^ place` rounds to the double. -/
def admits (place : Int) (digits : Nat) : Bool :=
  let (numerator, denominator) := interval.unitAt place
  let point := digits * denominator
  if interval.closed then interval.lower * numerator ≤ point && point ≤ interval.upper * numerator
  else interval.lower * numerator < point && point < interval.upper * numerator

/-- The nearest multiple of `10 ^ place` that rounds to the double, if there is one: only the two
neighbours of the double on that grid can be nearest. -/
def multipleAt? (tie : Tie) (place : Int) : Option Scaled :=
  let (numerator, denominator) := interval.unitAt place
  let below := interval.value * numerator / denominator
  let rest := interval.value * numerator % denominator
  let above := below + 1
  match interval.admits place below, interval.admits place above with
  | false, false => none
  | true, false => some ⟨below, place⟩
  | false, true => some ⟨above, place⟩
  | true, true =>
      let goesUp : Bool :=
        if 2 * rest = denominator then
          match tie with
          | .toEven => below % 2 == 1
          | .up => true
        else denominator < 2 * rest
      some ⟨if goesUp then above else below, place⟩

/-- A power of ten above every multiple of interest, from the position of the leading bit. -/
def topPlace : Int :=
  (Nat.log2 interval.upper + interval.exponent + 1) * 1233 / 4096 + 1

/-- The places to try, from the largest power of ten downward; 17 digits always suffice. -/
def places : List Int := (List.range 24).map fun step : Nat => interval.topPlace - step

/-- The shortest decimal that rounds to the double, nearest to it among those. -/
def shortest (tie : Tie) : Scaled :=
  (interval.places.findSome? (interval.multipleAt? tie)).getD ⟨interval.value, 0⟩

end RoundingInterval

end MapBlocks.Decimal
