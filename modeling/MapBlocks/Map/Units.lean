import MapBlocks.Json.Basic
import MapBlocks.Text.Blank
import MapBlocks.Yaml.Value

/-!
# Units

The units of the scale shown on a map.
-/

namespace MapBlocks.Map

/-- The units of a map's scale. -/
inductive Units where
  | metric
  | imperial
  | both
  deriving DecidableEq, Repr, Inhabited

namespace Units

def name : Units → String
  | .metric => "metric"
  | .imperial => "imperial"
  | .both => "both"

/-- Reads the name of units in any letter case, without the blanks around it. -/
def parse? (text : String) : Option Units :=
  let lower := (Text.trim text.toList).map Char.toLower
  [Units.metric, .imperial, .both].find? fun units => lower = units.name.toList

/-- The units that a value names; metric if it names none. -/
def ofValue (value : Yaml.Value) : Units := (value.scalarText?.bind parse?).getD .metric

def toJson (units : Units) : Json := .str units.name

end Units

end MapBlocks.Map
