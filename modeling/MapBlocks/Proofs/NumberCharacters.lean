import MapBlocks.Decimal.Layout

/-!
# Characters of written numbers

Whatever the layout, a number is written with digits, a sign, a point, an
exponent mark and the letters of `NaN` and `Infinity`.  Nothing in it can be
taken for markup or for the end of a line.
-/

namespace MapBlocks.Decimal

/-- The characters that numbers are written with. -/
def isNumberChar (c : Char) : Bool := c.isDigit || "+-.eNaInfity".toList.contains c

theorem all_isNumberChar_digitsOf (n : Nat) : (digitsOf n).all isNumberChar = true := by
  refine List.all_eq_true.mpr ?_
  intro c member
  have digit : c.isDigit = true :=
    Nat.isDigit_of_mem_toDigits (by decide) (by decide) member
  simp [isNumberChar, digit]

theorem all_isNumberChar_zeros (count : Nat) :
    (List.replicate count '0').all isNumberChar = true := by
  refine List.all_eq_true.mpr ?_
  intro c member
  rw [List.eq_of_mem_replicate member]
  rfl

theorem all_isNumberChar_positional
    {digits : List Char} (numeric : digits.all isNumberChar = true)
    (showsPoint : Bool) (whole : Int) :
    (positional showsPoint digits whole).all isNumberChar = true := by
  have zeros := all_isNumberChar_zeros
  have zero : isNumberChar '0' = true := rfl
  have point : isNumberChar '.' = true := rfl
  unfold positional
  split
  · simp only [List.all_cons, List.all_append, zero, point, zeros, numeric, Bool.and_self]
  · split
    · cases showsPoint <;> simp [zeros, numeric, zero, point]
    · have divided := List.take_append_drop whole.toNat digits
      rw [← divided, List.all_append, Bool.and_eq_true] at numeric
      simp only [List.all_append, List.all_cons, point, numeric, Bool.and_self]

theorem all_isNumberChar_scientific
    {digits : List Char} (numeric : digits.all isNumberChar = true) (exponent : Int) :
    (scientific digits exponent).all isNumberChar = true := by
  have zero : isNumberChar '0' = true := rfl
  have point : isNumberChar '.' = true := rfl
  have mark : isNumberChar 'e' = true := rfl
  have sign : isNumberChar (if exponent < 0 then '-' else '+') = true := by
    split <;> rfl
  have exponentDigits := all_isNumberChar_digitsOf exponent.natAbs
  unfold scientific
  match digits with
  | [] => simp [zero, mark, sign, exponentDigits]
  | [first] => simpa [mark, sign, exponentDigits] using numeric
  | first :: second :: others => simpa [point, mark, sign, exponentDigits] using numeric

namespace Layout

theorem all_isNumberChar_renderScaled (layout : Layout) (decimal : Scaled) :
    (layout.renderScaled decimal).all isNumberChar = true := by
  have numeric := all_isNumberChar_digitsOf decimal.digits
  simp only [renderScaled]
  split
  · exact all_isNumberChar_positional numeric _ _
  · exact all_isNumberChar_scientific numeric _

/-- A number is written with number characters if its layout spells zero so. -/
theorem all_isNumberChar_render
    {layout : Layout} (zero : layout.zero.toList.all isNumberChar = true)
    (negativeZero : layout.negativeZero.toList.all isNumberChar = true) (x : Float) :
    (layout.render x).toList.all isNumberChar = true := by
  rw [render, String.toList_ofList]
  cases Binary.ofFloat x with
  | nan => rfl
  | infinite negative => cases negative <;> rfl
  | finite negative significand exponent =>
      simp only [renderBinary]
      split
      · cases negative
        · exact zero
        · exact negativeZero
      · have scaled := all_isNumberChar_renderScaled layout
          ((RoundingInterval.around significand exponent).shortest layout.tie)
        cases negative
        · exact scaled
        · simpa [show isNumberChar '-' = true from rfl] using scaled

end Layout

end MapBlocks.Decimal
