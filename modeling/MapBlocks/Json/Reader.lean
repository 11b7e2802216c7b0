import MapBlocks.Json.Written

/-!
# Reading JSON

The last stage of reading: numbers and strings of a written text are given their values. Arrays
and objects may be nested 127 deep. An `Outline` names the members that a reader looks at; the
others are dropped with only their grammar checked.
-/

namespace MapBlocks.Json

/-- The characters of a written string; escapes outside the basic plane come in pairs of
surrogates, and a lone surrogate is a fault. -/
def textOf? : List Piece → Option (List Char)
  | [] => some []
  | .char c :: rest => (textOf? rest).map (c :: ·)
  | .unit high :: .unit low :: rest =>
      if 0xD800 ≤ high ∧ high < 0xDC00 then
        if 0xDC00 ≤ low ∧ low < 0xE000 then
          (textOf? rest).map
            (Char.ofNat (0x10000 + (high - 0xD800) * 0x400 + (low - 0xDC00)) :: ·)
        else none
      else if 0xDC00 ≤ high ∧ high < 0xE000 then none
      else (textOf? (.unit low :: rest)).map (Char.ofNat high :: ·)
  | .unit code :: rest =>
      if 0xD800 ≤ code ∧ code < 0xE000 then none else (textOf? rest).map (Char.ofNat code :: ·)

/-- The parts of a text that a reader looks at. -/
inductive Outline where
  /-- All of it. -/
  | whole
  /-- The named members of an object, or as many items of an array. -/
  | record (fields : List (String × Outline))

namespace Outline

def items : Outline → List Outline
  | .whole => []
  | .record fields => fields.map Prod.snd

def member? (key : String) : Outline → Option Outline
  | .whole => some .whole
  | .record fields => lookup? key fields

end Outline

/-- How deep arrays and objects may be nested. -/
def depthLimit : Nat := 127

namespace Written

mutual

/-- The value of a written text, nested at most `depth` deep. -/
def value? (outline : Outline) (depth : Nat) : Written → Option Json
  | .null => some .null
  | .bool value => some (.bool value)
  | .number numeral => numeral.number?.map .num
  | .string pieces => (textOf? pieces).map fun text => .str (String.ofList text)
  | .array items => match depth with
      | 0 => none
      | inner + 1 => (itemValues? outline.items inner items).map .arr
  | .object members => match depth with
      | 0 => none
      | inner + 1 => (memberValues? outline inner members).map .obj

/-- The values of the items of an array, each with its own outline. -/
def itemValues? (outlines : List Outline) (depth : Nat) : List Written → Option (List Json)
  | [] => some []
  | item :: rest => do
      let value ← value? (outlines.head?.getD .whole) depth item
      let values ← itemValues? outlines.tail depth rest
      some (value :: values)

/-- The members of an object that the outline names. -/
def memberValues? (outline : Outline) (depth : Nat) :
    List (List Piece × Written) → Option (List (String × Json))
  | [] => some []
  | (pieces, item) :: rest => do
      let key ← (textOf? pieces).map String.ofList
      match outline.member? key with
      | none => memberValues? outline depth rest
      | some inner =>
          let value ← value? inner depth item
          let values ← memberValues? outline depth rest
          some ((key, value) :: values)

end

end Written

/-- Reads the parts of a JSON text that an outline names; repeated keys are kept. -/
def parseOutline? (outline : Outline) (text : String) : Option Json :=
  (Written.parse? text.toList).bind (·.value? outline depthLimit)

/-- Reads a JSON text; repeated keys are kept. -/
def parse? (text : String) : Option Json := parseOutline? .whole text

end MapBlocks.Json
