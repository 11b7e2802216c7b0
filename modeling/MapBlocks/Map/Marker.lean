import MapBlocks.Json.Record
import MapBlocks.Map.Number
import MapBlocks.Text.Split

/-!
# Markers

A marker is given as a record, as a sequence of its parts, or in one text with its parts separated
by commas. In the last two a label may come before the coordinates. What has no coordinates is
dropped.
-/

namespace MapBlocks.Map

/-- A point of interest. -/
structure Marker where
  lat : Float
  lng : Float
  link : Option String
  popup : Option String

namespace Marker

def ofRecord? (record : Yaml.Value) : Option Marker := do
  let lat ← (record.field? "lat").bind toNumber?
  let lng ← (record.field? "lng" <|> record.field? "long").bind toNumber?
  some ⟨lat, lng, (record.field? "link").bind Yaml.Value.scalarText?,
    (record.field? "popup" <|> record.field? "desc").bind Yaml.Value.scalarText?⟩

/-- The parts without a label: a first part that is no number is one. -/
def withoutLabel : List String → List String
  | [] => []
  | first :: rest => if (parseNumber? first).isNone then rest else first :: rest

/-- Reads the parts of a marker: coordinates, link and popup. -/
def ofParts? (parts : List String) : Option Marker := do
  let fields := withoutLabel parts
  let lat ← fields.head?.bind parseNumber?
  let lng ← fields[1]?.bind parseNumber?
  some ⟨lat, lng, fields[2]?.bind Text.nonempty?, fields[3]?.bind Text.nonempty?⟩

/-- The text of a part; what is no scalar is an empty part. -/
def partText (value : Yaml.Value) : String := Text.trimmed (value.scalarText?.getD "")

def ofValue? (value : Yaml.Value) : Option Marker :=
  match value with
  | .map _ => ofRecord? value
  | .seq items => ofParts? (items.map partText)
  | scalar => scalar.scalarText?.bind fun text => ofParts? (Text.fields ',' text)

/-- Reads a list of markers, or one marker in its place. The list may turn out to be empty. -/
def listOfValue? (value : Yaml.Value) : Option (List Marker) :=
  if !value.isTruthy then none
  else match value with
    | .seq items => some (items.filterMap ofValue?)
    | single => some (ofValue? single).toList

def toJson (marker : Marker) : Json :=
  .obj (Json.present
    [("lat", some (.num (.real marker.lat))), ("lng", some (.num (.real marker.lng))),
      ("link", marker.link.map .str), ("popup", marker.popup.map .str)])

def listToJson (markers : List Marker) : Json := .arr (markers.map toJson)

end Marker

end MapBlocks.Map
