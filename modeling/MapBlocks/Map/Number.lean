import MapBlocks.Text.Blank
import MapBlocks.Yaml.Value

/-!
# Numbers in payloads

A number may be given as a number or as a text. A text is read as a decimal numeral, or after
`0x`, `0o` or `0b` as a whole number of that radix below 2^64.
-/

namespace MapBlocks.Map

/-- The radix that the letter after a zero stands for. -/
def radix? : Char → Option Nat
  | 'x' => some 16
  | 'X' => some 16
  | 'o' => some 8
  | 'O' => some 8
  | 'b' => some 2
  | 'B' => some 2
  | _ => none

/-- Reads a whole number with its radix before it. One plus sign may stand before the digits. -/
def radixNumber? : List Char → Option Float
  | '0' :: letter :: text => do
      let radix ← radix? letter
      let digits := match text with
        | '+' :: rest => rest
        | _ => text
      let value ← Decimal.natural? radix digits
      if value < Nat.pow 2 64 then some (Decimal.ofWord value) else none
  | _ => none

/-- The finite number that a text spells, without the blanks around it. -/
def parseNumber? (text : String) : Option Float :=
  let body := Text.trim text.toList
  radixNumber? body <|> (Decimal.float? body).filter Float.isFinite

/-- The finite number that a value is or spells. -/
def toNumber? : Yaml.Value → Option Float
  | .int value => some (Decimal.ofInt value)
  | .real text => parseNumber? text
  | .str text => parseNumber? text
  | _ => none

end MapBlocks.Map
