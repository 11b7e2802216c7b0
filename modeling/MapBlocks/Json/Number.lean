import MapBlocks.Decimal.Layout
import MapBlocks.Decimal.Numeral
import MapBlocks.Json.Basic

/-!
# Numbers in JSON texts

Whole numbers that fit into 64 bits are kept as they are. Every other number becomes a double: as
many leading digits as fit into a 64-bit word, divided or multiplied once by a power of ten. That
is the nearest double for up to 15 digits and a small exponent, and close to it otherwise.
-/

namespace MapBlocks.Json

/-- Doubles have the shortest digits that read back, positional notation from `0.00001` to below
`10 ^ 16`, always a point in positional notation and always a sign on the exponent. -/
def numberLayout : Decimal.Layout where
  least? := some (-5)
  greatest? := some 15
  showsPoint := true
  tie := .toEven
  zero := "0.0"
  negativeZero := "-0.0"

/-- A number as it is written in a JSON text. -/
structure Numeral where
  negative : Bool
  /-- The digits before the point, without superfluous leading zeros. -/
  whole : List Char
  /-- The digits after the point; empty if there is no point. -/
  fraction : List Char
  /-- The exponent, if one is written. -/
  exponent? : Option Int
  deriving DecidableEq, Repr

/-- Appends digits to a number for as long as the result fits into 64 bits; the digits that are
left over come second. -/
def absorb (value : Nat) : List Char → Nat × List Char
  | [] => (value, [])
  | c :: rest =>
      let longer := value * 10 + (Decimal.digitValue? c).getD 0
      if longer < Nat.pow 2 64 then absorb longer rest else (value, c :: rest)

/-- The double nearest to a power of ten. -/
def powerOfTen (exponent : Nat) : Float := Float.ofScientific 1 false exponent

/-- A double divided by a power of ten, in steps that are themselves doubles. -/
def divideByPower (x : Float) (exponent : Nat) : Float :=
  if x == 0 then x
  else if exponent ≤ 308 then x / powerOfTen exponent
  else divideByPower (x / powerOfTen 308) (exponent - 308)
termination_by exponent

/-- `significand · 10 ^ exponent` by one multiplication or division, if it is in range. -/
def scaled? (significand : Nat) (exponent : Int) : Option Float :=
  let x := Decimal.ofWord significand
  if exponent < 0 then some (divideByPower x exponent.natAbs)
  else if significand = 0 then some x
  else if 308 < exponent then none
  else
    let product := x * powerOfTen exponent.toNat
    if product.isInf then none else some product

namespace Numeral

/-- The whole number, if the numeral has neither point nor exponent and fits into 64 bits. A
negative zero is no whole number. -/
def int? (n : Numeral) : Option Int :=
  let value := Decimal.valueOf 10 n.whole
  if n.fraction.isEmpty && n.exponent?.isNone then
    if n.negative then if 0 < value ∧ value ≤ Nat.pow 2 63 then some (-(value : Int)) else none
    else if value < Nat.pow 2 64 then some value else none
  else none

/-- The numeral as a double, if it is in range. Digits that do not fit into the 64-bit word are
dropped: before the point each raises the exponent by one, after it they have no effect. -/
def float? (n : Numeral) : Option Float := do
  let (head, dropped) := absorb 0 n.whole
  let (significand, ignored) := absorb head n.fraction
  let used := n.fraction.length - ignored.length
  let exponent := n.exponent?.getD 0 + dropped.length - used
  let x ← scaled? significand exponent
  some (if n.negative then -x else x)

def number? (n : Numeral) : Option Number :=
  match n.int? with
  | some value => some (.int value)
  | none => n.float?.map .real

end Numeral

end MapBlocks.Json
