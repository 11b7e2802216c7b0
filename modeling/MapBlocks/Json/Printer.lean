import MapBlocks.Json.Number

/-!
# Writing JSON

A value is written without spaces, the members of an object in their order. In strings only the
quotation mark, the backslash and the control characters below U+0020 are escaped.
-/

namespace MapBlocks.Json

/-- The lower-case hexadecimal digit of a value below sixteen. -/
def hexDigit (value : Nat) : Char := (Nat.digitChar value)

def escapeChar (c : Char) : List Char :=
  if c = '"' then ['\\', '"']
  else if c = '\\' then ['\\', '\\']
  else if c = '\n' then ['\\', 'n']
  else if c = '\r' then ['\\', 'r']
  else if c = '\t' then ['\\', 't']
  else if c.toNat = 8 then ['\\', 'b']
  else if c.toNat = 12 then ['\\', 'f']
  else if c.toNat < 32 then ['\\', 'u', '0', '0', hexDigit (c.toNat / 16), hexDigit (c.toNat % 16)]
  else [c]

/-- A string between quotation marks. -/
def quote (text : List Char) : List Char := '"' :: (text.flatMap escapeChar ++ ['"'])

/-- A number; JSON has no way to write a double that is not finite, and `null` stands for it. -/
def Number.render : Number → List Char
  | .int value =>
      if value < 0 then '-' :: Decimal.digitsOf value.natAbs else Decimal.digitsOf value.natAbs
  | .real value => if value.isFinite then (numberLayout.render value).toList else "null".toList

mutual

def render : Json → List Char
  | .null => "null".toList
  | .bool true => "true".toList
  | .bool false => "false".toList
  | .num value => value.render
  | .str value => quote value.toList
  | .arr items => '[' :: (renderItems items ++ [']'])
  | .obj members => '\x7b' :: (renderMembers members ++ ['\x7d'])

def renderItems : List Json → List Char
  | [] => []
  | [item] => render item
  | item :: rest => render item ++ ',' :: renderItems rest

def renderMembers : List (String × Json) → List Char
  | [] => []
  | [(key, value)] => quote key.toList ++ ':' :: render value
  | (key, value) :: rest => quote key.toList ++ ':' :: (render value ++ ',' :: renderMembers rest)

end

def text (value : Json) : String := String.ofList value.render

end MapBlocks.Json
