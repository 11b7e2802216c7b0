/-!
# Reading numbers

The grammar of decimal numerals: an optional sign, digits with at most one point and at least one
digit, and an optional exponent. A numeral denotes the double nearest to it. Beside it stands the
reading of integers in a given radix.
-/

namespace MapBlocks.Decimal

/-- The value of a digit, in radices up to 16. -/
def digitValue? (c : Char) : Option Nat :=
  let code := c.toNat
  if 48 ≤ code ∧ code ≤ 57 then some (code - 48)
  else if 97 ≤ code ∧ code ≤ 102 then some (code - 87)
  else if 65 ≤ code ∧ code ≤ 70 then some (code - 55)
  else none

def isDigitOf (radix : Nat) (c : Char) : Bool := (digitValue? c).any (· < radix)

/-- The number written by a list of digits of the radix, most significant first. -/
def valueOf (radix : Nat) (digits : List Char) : Nat :=
  digits.foldl (fun value c => value * radix + (digitValue? c).getD 0) 0

/-- One or more digits of the radix and nothing else, read as a number. -/
def natural? (radix : Nat) (text : List Char) : Option Nat :=
  if text.isEmpty || !text.all (isDigitOf radix) then none else some (valueOf radix text)

/-- The text after an optional leading sign, and whether that sign is a minus. -/
def takeSign : List Char → Bool × List Char
  | '-' :: rest => (true, rest)
  | '+' :: rest => (false, rest)
  | text => (false, text)

/-- An optional sign and one or more digits of the radix, in the range of 64-bit signed words. -/
def word? (radix : Nat) (text : List Char) : Option Int := do
  let (negative, digits) := takeSign text
  let magnitude ← natural? radix digits
  if negative then if magnitude ≤ Nat.pow 2 63 then some (-(magnitude : Int)) else none
  else if magnitude < Nat.pow 2 63 then some magnitude else none

/-- A decimal numeral, with its digits as written. -/
structure Numeral where
  negative : Bool
  whole : List Char
  fraction : List Char
  exponent : Int
  deriving DecidableEq, Repr

namespace Numeral

/-- The optional exponent at the end of a numeral: `e` or `E`, an optional sign and digits. -/
def exponent? : List Char → Option Int
  | [] => some 0
  | c :: rest =>
      if c = 'e' ∨ c = 'E' then do
        let (negative, digits) := takeSign rest
        let magnitude ← natural? 10 digits
        some (if negative then -(magnitude : Int) else magnitude)
      else none

def parse? (text : List Char) : Option Numeral :=
  let (negative, unsigned) := takeSign text
  let whole := unsigned.takeWhile (isDigitOf 10)
  let (fraction, tail) := match unsigned.dropWhile (isDigitOf 10) with
    | '.' :: rest => (rest.takeWhile (isDigitOf 10), rest.dropWhile (isDigitOf 10))
    | rest => ([], rest)
  if whole.isEmpty && fraction.isEmpty then none
  else (exponent? tail).map fun exponent => ⟨negative, whole, fraction, exponent⟩

/-- The digits of the numeral as one whole number. -/
def digits (n : Numeral) : Nat := valueOf 10 (n.whole ++ n.fraction)

/-- The power of ten that scales `digits`. -/
def scale (n : Numeral) : Int := n.exponent - n.fraction.length

/-- The double nearest to `digits · 10 ^ scale`. Values beyond the range of doubles on either side
are settled from the number of digits alone, since 10 ^ 309 and 10 ^ -343 lie outside it. -/
def magnitude (n : Numeral) : Float :=
  let length := (Nat.toDigits 10 n.digits).length
  if n.digits = 0 then 0
  else if 310 < n.scale + length then Float.ofBits 0x7FF0000000000000
  else if n.scale + length < -343 then 0
  else Float.ofScientific n.digits (n.scale < 0) n.scale.natAbs

/-- The double nearest to the numeral, infinite beyond the largest finite one. -/
def toFloat (n : Numeral) : Float := if n.negative then -n.magnitude else n.magnitude

end Numeral

/-- The words for infinity and for no number, in lower case. -/
def wordValue? (text : List Char) : Option Float :=
  let lower := text.map Char.toLower
  if lower = "inf".toList ∨ lower = "infinity".toList then some (Float.ofBits 0x7FF0000000000000)
  else if lower = "nan".toList then some (Float.ofBits 0x7FF8000000000000)
  else none

/-- Reads a numeral, or one of the words `inf`, `infinity` and `nan` in any letter case and with
an optional sign. -/
def float? (text : List Char) : Option Float :=
  match Numeral.parse? text with
  | some numeral => some numeral.toFloat
  | none =>
      let (negative, unsigned) := takeSign text
      (wordValue? unsigned).map fun value => if negative then -value else value

/-- The double nearest to a number below 2^64. -/
def ofWord (value : Nat) : Float := (UInt64.ofNat value).toFloat

/-- The double nearest to an integer of 64 bits. -/
def ofInt (value : Int) : Float := if value < 0 then -(ofWord value.natAbs) else ofWord value.natAbs

end MapBlocks.Decimal
