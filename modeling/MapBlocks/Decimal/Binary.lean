/-!
# Double-precision numbers as binary fractions

A finite double is `± significand · 2 ^ exponent`. The reals that round to it form an interval
around it, whose ends belong to it exactly when the significand is even.
-/

namespace MapBlocks.Decimal

/-- A double taken apart. -/
inductive Binary where
  | nan
  | infinite (negative : Bool)
  | finite (negative : Bool) (significand : Nat) (exponent : Int)
  deriving DecidableEq, Repr

/-- The parts of a double with the given bits: one for the sign, eleven for the exponent, 52 for
the fraction. -/
def Binary.ofBits (bits : Nat) : Binary :=
  let negative : Bool := Nat.pow 2 63 ≤ bits
  let scale : Nat := bits / Nat.pow 2 52 % 2048
  let fraction : Nat := bits % Nat.pow 2 52
  if scale = 2047 then if fraction = 0 then .infinite negative else .nan
  else if scale = 0 then .finite negative fraction (-1074)
  else .finite negative (fraction + Nat.pow 2 52) ((scale : Int) - 1075)

def Binary.ofFloat (x : Float) : Binary := .ofBits x.toBits.toNat

/-- The reals that round to a positive double, and the double itself, all in units of
`2 ^ exponent`. -/
structure RoundingInterval where
  lower : Nat
  value : Nat
  upper : Nat
  exponent : Int
  /-- Whether the two ends themselves round to the double. -/
  closed : Bool
  deriving DecidableEq, Repr

/-- The gap below a power of two is half the gap above it, except at the bottom of the range. -/
def RoundingInterval.around (significand : Nat) (exponent : Int) : RoundingInterval where
  lower :=
    if significand = Nat.pow 2 52 ∧ -1074 < exponent then 4 * significand - 1
    else 4 * significand - 2
  value := 4 * significand
  upper := 4 * significand + 2
  exponent := exponent - 2
  closed := significand % 2 == 0

end MapBlocks.Decimal
