import MapBlocks.Map.Bounds
import MapBlocks.Map.Image
import MapBlocks.Map.Marker
import MapBlocks.Map.Tile
import MapBlocks.Map.Units

/-!
# Map descriptions

All that is known of a map, read from the payload of a map block, and its JSON form.
-/

namespace MapBlocks.Map

/-- The description of a map. -/
structure Spec where
  id : Option String
  height : String
  width : String
  lat : Option Float
  lng : Option Float
  bounds : Option Bounds
  minZoom : Option Float
  maxZoom : Option Float
  defaultZoom : Float
  zoomDelta : Option Float
  unit : Units
  scale : Bool
  recenter : Bool
  darkMode : Bool
  tileServer : Option (List TileLayer)
  overlay : Option (List TileLayer)
  images : Option String
  markers : Option (List Marker)

namespace Spec

/-- The description of a map of which nothing is said. -/
def default : Spec where
  id := none
  height := "500px"
  width := "100%"
  lat := none
  lng := none
  bounds := none
  minZoom := none
  maxZoom := none
  defaultZoom := 5
  zoomDelta := none
  unit := .metric
  scale := true
  recenter := false
  darkMode := false
  tileServer := none
  overlay := none
  images := none
  markers := none

/-- Whether a value is the truth value `false` itself. -/
def isFalse : Yaml.Value → Bool
  | .bool value => !value
  | _ => false

/-- The description that a payload gives. `assets` is the directory of images. -/
def ofPayload (assets : String) (payload : Payload) : Spec where
  id := (payload.get? "id").bind Yaml.Value.scalarText?
  height := ((payload.get? "height").bind Yaml.Value.scalarText?).getD default.height
  width := ((payload.get? "width").bind Yaml.Value.scalarText?).getD default.width
  lat := (payload.get? "lat").bind toNumber?
  lng := (payload.first? ["lng", "long"]).bind toNumber?
  bounds := (payload.get? "bounds").bind Bounds.ofValue?
  minZoom := (payload.get? "minZoom").bind toNumber?
  maxZoom := (payload.get? "maxZoom").bind toNumber?
  defaultZoom := ((payload.get? "defaultZoom").bind toNumber?).getD default.defaultZoom
  zoomDelta := (payload.get? "zoomDelta").bind toNumber?
  unit := ((payload.get? "unit").map Units.ofValue).getD default.unit
  scale := !(payload.get? "scale").any isFalse
  recenter := (payload.get? "recenter").any Yaml.Value.isTruthy
  darkMode := (payload.get? "darkMode").any Yaml.Value.isTruthy
  tileServer :=
    (payload.get? "tileServer").bind TileLayer.listOfValue?
      <|> (payload.get? "tiles").bind TileLayer.listOfValue?
  overlay := (payload.get? "overlay").bind TileLayer.listOfValue?
  images := imagePath? payload assets
  markers := (payload.first? ["marker", "markers"]).bind Marker.listOfValue?

/-- The description that the text of a map block gives; a text that is no payload says nothing. -/
def ofText (assets text : String) : Spec := ofPayload assets (Payload.parseOrEmpty text)

/-- The identifier of the page element that holds the map. -/
def elementId (spec : Spec) : String := spec.id.getD "undefined"

/-- The fields of a description, in order; a field that is not known has no value. -/
def fields (spec : Spec) : List (String × Option Json) :=
  let number : Float → Json := fun x => .num (.real x)
  [("id", spec.id.map .str),
    ("height", some (.str spec.height)),
    ("width", some (.str spec.width)),
    ("lat", spec.lat.map number),
    ("lng", spec.lng.map number),
    ("bounds", spec.bounds.map Bounds.toJson),
    ("minZoom", spec.minZoom.map number),
    ("maxZoom", spec.maxZoom.map number),
    ("defaultZoom", some (number spec.defaultZoom)),
    ("zoomDelta", spec.zoomDelta.map number),
    ("unit", some spec.unit.toJson),
    ("scale", some (.bool spec.scale)),
    ("recenter", some (.bool spec.recenter)),
    ("darkMode", some (.bool spec.darkMode)),
    ("tileServer", spec.tileServer.map TileLayer.listToJson),
    ("overlay", spec.overlay.map TileLayer.listToJson),
    ("images", spec.images.map .str),
    ("markers", spec.markers.map Marker.listToJson)]

def fieldNames : List String :=
  ["id", "height", "width", "lat", "lng", "bounds", "minZoom", "maxZoom", "defaultZoom",
    "zoomDelta", "unit", "scale", "recenter", "darkMode", "tileServer", "overlay", "images",
    "markers"]

theorem map_fst_fields (spec : Spec) : spec.fields.map Prod.fst = fieldNames := rfl

/-- A description as JSON, with the fields that have a value. -/
def toJson (spec : Spec) : Json := .obj (Json.present spec.fields)

end Spec

end MapBlocks.Map
