/-!
# Base64

Bytes as text in the standard base64 alphabet, padded with `=` to whole groups of four
characters, and the reading of such a text.
-/

namespace MapBlocks.Text.Base64

/-- The character of a six-bit value: `A`–`Z`, `a`–`z`, `0`–`9`, `+`, `/`. -/
def sextetChar (value : Nat) : Char :=
  if value < 26 then Char.ofNat (value + 65)
  else if value < 52 then Char.ofNat (value - 26 + 97)
  else if value < 62 then Char.ofNat (value - 52 + 48)
  else if value = 62 then '+' else '/'

/-- The six-bit value of a character of the alphabet. -/
def sextet? (c : Char) : Option Nat :=
  let code := c.toNat
  if 65 ≤ code ∧ code ≤ 90 then some (code - 65)
  else if 97 ≤ code ∧ code ≤ 122 then some (code - 97 + 26)
  else if 48 ≤ code ∧ code ≤ 57 then some (code - 48 + 52)
  else if c = '+' then some 62
  else if c = '/' then some 63
  else none

/-- Three bytes are four characters; one or two bytes left over are padded. -/
def encode : List UInt8 → List Char
  | a :: b :: c :: rest =>
      let group := a.toNat * 65536 + b.toNat * 256 + c.toNat
      sextetChar (group / 262144) :: sextetChar (group / 4096 % 64)
        :: sextetChar (group / 64 % 64) :: sextetChar (group % 64) :: encode rest
  | [a, b] =>
      let group := a.toNat * 65536 + b.toNat * 256
      [sextetChar (group / 262144), sextetChar (group / 4096 % 64), sextetChar (group / 64 % 64),
        '=']
  | [a] =>
      let group := a.toNat * 65536
      [sextetChar (group / 262144), sextetChar (group / 4096 % 64), '=', '=']
  | [] => []

/-- The bytes of a padded text. The bits that padding leaves over must be zero. -/
def decode : List Char → Option (List UInt8)
  | [] => some []
  | [w, x, '=', '='] => do
      let group := (← sextet? w) * 64 + (← sextet? x)
      if group % 16 = 0 then some [UInt8.ofNat (group / 16)] else none
  | [w, x, y, '='] => do
      let group := ((← sextet? w) * 64 + (← sextet? x)) * 64 + (← sextet? y)
      if group % 4 = 0 then some [UInt8.ofNat (group / 1024), UInt8.ofNat (group / 4 % 256)]
      else none
  | w :: x :: y :: z :: rest => do
      let group := (((← sextet? w) * 64 + (← sextet? x)) * 64 + (← sextet? y)) * 64 + (← sextet? z)
      let bytes ← decode rest
      some (UInt8.ofNat (group / 65536) :: UInt8.ofNat (group / 256 % 256)
        :: UInt8.ofNat (group % 256) :: bytes)
  | _ => none

/-- The base64 text of a string's UTF-8 bytes. -/
def encodeString (text : String) : String := String.ofList (encode text.toUTF8.toList)

/-- The string whose UTF-8 bytes a base64 text stands for. -/
def decodeString? (text : String) : Option String := do
  let bytes ← decode text.toList
  String.fromUTF8? bytes.toByteArray

end MapBlocks.Text.Base64
