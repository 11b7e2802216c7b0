import MapBlocks.Json.Record

/-!
# Source positions

Where a node of a Markdown tree starts and ends in its source, and the JSON form of that.
-/

namespace MapBlocks.Markdown

/-- A place in a source text. -/
structure Point where
  line : UInt64
  column : UInt64
  offset : Option UInt64
  deriving DecidableEq, Repr

/-- The stretch of a source text that a node covers. -/
structure Position where
  start : Point
  stop : Point
  deriving DecidableEq, Repr

/-- A whole number of 64 bits. -/
def word? (value : Json) : Option UInt64 := (Json.below? (Nat.pow 2 64) value).map UInt64.ofNat

/-- A number of 64 bits as JSON. -/
def ofWord (value : UInt64) : Json := .num (.int value.toNat)

namespace Point

def fieldNames : List String := ["line", "column", "offset"]

/-- Reads a point; its offset may be left out. -/
def ofJson? (value : Json) : Option Point := do
  let fields ← Json.record? fieldNames value
  let line ← Json.required? fields "line" word?
  let column ← Json.required? fields "column" word?
  let offset ← Json.optional? fields "offset" word?
  some ⟨line, column, offset⟩

def toJson (point : Point) : Json :=
  .obj (Json.present
    [("line", some (ofWord point.line)), ("column", some (ofWord point.column)),
      ("offset", point.offset.map ofWord)])

end Point

namespace Position

def fieldNames : List String := ["start", "end"]

def ofJson? (value : Json) : Option Position := do
  let fields ← Json.record? fieldNames value
  let start ← Json.required? fields "start" Point.ofJson?
  let stop ← Json.required? fields "end" Point.ofJson?
  some ⟨start, stop⟩

def toJson (position : Position) : Json :=
  .obj [("start", position.start.toJson), ("end", position.stop.toJson)]

end Position

end MapBlocks.Markdown
