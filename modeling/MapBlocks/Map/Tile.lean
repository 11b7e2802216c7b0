import MapBlocks.Json.Record
import MapBlocks.Text.Split
import MapBlocks.Yaml.Value

/-!
# Tile layers

A tile layer is given as a record or in one text, its parts separated by bars. What gives no
layer is dropped from a list.
-/

namespace MapBlocks.Map

/-- A source of map tiles. -/
structure TileLayer where
  /-- The pattern of the addresses of its tiles. -/
  template : String
  name : Option String
  attribution : Option String
  deriving DecidableEq, Repr

namespace TileLayer

/-- Reads `template|name|attribution`, where the template must not be empty. Parts after the third
have no meaning. -/
def parse? (text : String) : Option TileLayer :=
  match Text.fields '|' text with
  | [] => none
  | template :: rest =>
      (Text.nonempty? template).map fun template =>
        ⟨template, rest.head?.bind Text.nonempty?, rest[1]?.bind Text.nonempty?⟩

/-- Reads a record, which must have a template. -/
def ofRecord? (record : Yaml.Value) : Option TileLayer := do
  let value ← (record.field? "template").filter Yaml.Value.isTruthy
  let template ← value.scalarText?
  some ⟨template, (record.field? "name").bind Yaml.Value.scalarText?,
    (record.field? "attribution").bind Yaml.Value.scalarText?⟩

def ofValue? (value : Yaml.Value) : Option TileLayer :=
  if !value.isTruthy then none
  else match value with
    | .map _ => ofRecord? value
    | .seq _ => none
    | scalar => scalar.scalarText?.bind parse?

/-- Reads a list of layers, or one layer in its place. There is no list without layers. -/
def listOfValue? (value : Yaml.Value) : Option (List TileLayer) :=
  if !value.isTruthy then none
  else
    let layers := match value with
      | .seq items => items.filterMap ofValue?
      | single => (ofValue? single).toList
    if layers.isEmpty then none else some layers

def toJson (layer : TileLayer) : Json :=
  .obj (Json.present
    [("template", some (.str layer.template)), ("name", layer.name.map .str),
      ("attribution", layer.attribution.map .str)])

def listToJson (layers : List TileLayer) : Json := .arr (layers.map toJson)

end TileLayer

end MapBlocks.Map
