import MapBlocks.Decimal.Shortest

/-!
# How a number is laid out

A `Layout` says when a number is written positionally, whether a point is always shown, how the
exponent is signed, and how the special values are spelled. `Layout.render` writes a double with
its shortest digits in such a layout.
-/

namespace MapBlocks.Decimal

/-- The decisions of a number format. -/
structure Layout where
  /-- The least exponent of the leading digit that is written positionally; none is too small if
  absent. -/
  least? : Option Int
  /-- The greatest exponent of the leading digit that is written positionally; none is too great
  if absent. -/
  greatest? : Option Int
  /-- Whether a whole number in positional notation ends in `.0`. -/
  showsPoint : Bool
  /-- Which of two equally near shortest decimals is taken. -/
  tie : Tie
  zero : String
  negativeZero : String
  deriving Repr

/-- The decimal digits of a number, most significant first. -/
def digitsOf (n : Nat) : List Char := Nat.toDigits 10 n

/-- Digits with the point `whole` places after their start, filled up with zeros on either side. -/
def positional (showsPoint : Bool) (digits : List Char) (whole : Int) : List Char :=
  if whole ≤ 0 then '0' :: '.' :: (List.replicate (-whole).toNat '0' ++ digits)
  else if digits.length ≤ whole.toNat then
    digits ++ List.replicate (whole.toNat - digits.length) '0'
      ++ (if showsPoint then ['.', '0'] else [])
  else digits.take whole.toNat ++ '.' :: digits.drop whole.toNat

/-- Digits with the point after the first of them, and the exponent of that first digit, always
signed. -/
def scientific (digits : List Char) (exponent : Int) : List Char :=
  let mantissa := match digits with
    | [] => ['0']
    | [first] => [first]
    | first :: rest => first :: '.' :: rest
  mantissa ++ 'e' :: (if exponent < 0 then '-' else '+') :: digitsOf exponent.natAbs

namespace Layout

/-- Whether a leading digit with this exponent is written positionally. -/
def isPositional (layout : Layout) (exponent : Int) : Bool :=
  layout.least?.all (· ≤ exponent) && layout.greatest?.all (exponent ≤ ·)

/-- A positive decimal in this layout. -/
def renderScaled (layout : Layout) (decimal : Scaled) : List Char :=
  let digits := digitsOf decimal.digits
  let whole := decimal.exponent + digits.length
  if layout.isPositional (whole - 1) then positional layout.showsPoint digits whole
  else scientific digits (whole - 1)

def renderBinary (layout : Layout) : Binary → List Char
  | .nan => "NaN".toList
  | .infinite negative => (if negative then "-Infinity" else "Infinity").toList
  | .finite negative significand exponent =>
      if significand = 0 then (if negative then layout.negativeZero else layout.zero).toList
      else
        let interval := RoundingInterval.around significand exponent
        (if negative then ['-'] else []) ++ layout.renderScaled (interval.shortest layout.tie)

def render (layout : Layout) (x : Float) : String :=
  String.ofList (layout.renderBinary (.ofFloat x))

end Layout

end MapBlocks.Decimal
