import MapBlocks.Decimal.Numeral

/-!
# YAML values

What a YAML node of version 1.2 means. A plain scalar is null, a truth value, a number or a text,
as its spelling says; a real number keeps its spelling.
-/

namespace MapBlocks.Yaml

/-- A value of a YAML document. -/
inductive Value where
  | null
  /-- A scalar that does not fit its tag, or an alias inside of what it repeats. -/
  | bad
  | bool (value : Bool)
  | int (value : Int)
  | real (text : String)
  | str (text : String)
  | seq (items : List Value)
  | map (entries : List (Value × Value))
  deriving Inhabited

namespace Value

mutual

/-- Whether two values are the same; the order of a mapping's pairs matters. -/
def same : Value → Value → Bool
  | .null, .null => true
  | .bad, .bad => true
  | .bool a, .bool b => a == b
  | .int a, .int b => a == b
  | .real a, .real b => a == b
  | .str a, .str b => a == b
  | .seq a, .seq b => sameItems a b
  | .map a, .map b => sameEntries a b
  | _, _ => false

def sameItems : List Value → List Value → Bool
  | [], [] => true
  | a :: as, b :: bs => same a b && sameItems as bs
  | _, _ => false

def sameEntries : List (Value × Value) → List (Value × Value) → Bool
  | [], [] => true
  | (k, a) :: as, (l, b) :: bs => same k l && same a b && sameEntries as bs
  | _, _ => false

end

/-- Whether the value is null or bad. -/
def isBlank : Value → Bool
  | .null => true
  | .bad => true
  | _ => false

/-- The spellings of infinity. -/
def infinityWords : List String :=
  [".inf", ".Inf", ".INF", "+.inf", "+.Inf", "+.INF", "-.inf", "-.Inf", "-.INF"]

def nanWords : List String := [".nan", ".NaN", ".NAN"]

/-- Whether a text spells a real number: infinity, no number, or a numeral with a digit. -/
def isReal (text : String) : Bool :=
  infinityWords.contains text || nanWords.contains text
    || (text.toList.any Char.isDigit && (Decimal.float? text.toList).isSome)

/-- The integer that a text spells after `0x`, `0o` or `+`; it may have a sign of its own. -/
def markedInt? : List Char → Option Int
  | '0' :: 'x' :: digits => Decimal.word? 16 digits
  | '0' :: 'o' :: digits => Decimal.word? 8 digits
  | '+' :: digits => Decimal.word? 10 digits
  | _ => none

/-- The value of a plain scalar without a tag. -/
def ofPlain (text : String) : Value :=
  match markedInt? text.toList with
  | some value => .int value
  | none =>
      if ["", "~", "null"].contains text then .null
      else if ["true", "True", "TRUE"].contains text then .bool true
      else if ["false", "False", "FALSE"].contains text then .bool false
      else match Decimal.word? 10 text.toList with
        | some value => .int value
        | none => if isReal text then .real text else .str text

/-- The value of a plain scalar with one of YAML's own tags. Tags that are not about scalars of a
special kind make it a text. -/
def ofCore (suffix text : String) : Value :=
  match suffix with
  | "bool" => if text = "true" then .bool true else if text = "false" then .bool false else .bad
  | "int" => match Decimal.word? 10 text.toList with
      | some value => .int value
      | none => .bad
  | "float" => if isReal text then .real text else .bad
  | "null" => if text = "~" ∨ text = "null" then .null else .bad
  | _ => .str text

/-- The text of a scalar as it is shown: a text itself, the spelling of a real number, an integer
in decimal digits, or the name of a truth value. -/
def scalarText? : Value → Option String
  | .str text => some text
  | .real text => some text
  | .int value =>
      let digits := Nat.toDigits 10 value.natAbs
      some (String.ofList (if value < 0 then '-' :: digits else digits))
  | .bool true => some "true"
  | .bool false => some "false"
  | .null | .bad | .seq _ | .map _ => none

/-- The first value that a mapping has for a text as key. -/
def valueOf? (key : String) : List (Value × Value) → Option Value
  | [] => none
  | (.str name, value) :: rest => if name = key then some value else valueOf? key rest
  | _ :: rest => valueOf? key rest

/-- The value of a text as key, if this is a mapping that has one which is neither null nor bad. -/
def field? (value : Value) (key : String) : Option Value :=
  match value with
  | .map entries => (valueOf? key entries).filter (!·.isBlank)
  | _ => none

/-- Whether a real number, by its spelling, is a numeral other than zero. The spellings of
infinity and of no number with a point are no numerals. -/
def isNonzeroReal (text : String) : Bool :=
  (Decimal.float? text.toList).any fun x => !(x == 0) && !x.isNaN

/-- Whether a value counts as true. -/
def isTruthy : Value → Bool
  | .null => false
  | .bad => false
  | .bool value => value
  | .int value => value ≠ 0
  | .real text => isNonzeroReal text
  | .str text => text ≠ ""
  | .seq _ => true
  | .map _ => true

end Value

end MapBlocks.Yaml
