import MapBlocks.Json.Basic
import MapBlocks.Map.Number

/-!
# Bounds

The two opposite corners of an image on a map.
-/

namespace MapBlocks.Map

/-- A corner: two coordinates. -/
structure Corner where
  first : Float
  second : Float

/-- Two opposite corners. -/
structure Bounds where
  first : Corner
  second : Corner

/-- Reads a pair of numbers. -/
def Corner.ofValue? : Yaml.Value → Option Corner
  | .seq [a, b] => do some ⟨← toNumber? a, ← toNumber? b⟩
  | _ => none

def Corner.toJson (corner : Corner) : Json :=
  .arr [.num (.real corner.first), .num (.real corner.second)]

/-- Reads a pair of corners. -/
def Bounds.ofValue? : Yaml.Value → Option Bounds
  | .seq [a, b] => do some ⟨← Corner.ofValue? a, ← Corner.ofValue? b⟩
  | _ => none

def Bounds.toJson (bounds : Bounds) : Json := .arr [bounds.first.toJson, bounds.second.toJson]

end MapBlocks.Map
