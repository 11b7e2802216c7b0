import MapBlocks.Json.Printer
import MapBlocks.Map.Spec
import MapBlocks.Markdown.Node
import MapBlocks.Settings
import MapBlocks.Text.Base64
import MapBlocks.Text.Html

/-!
# Maps as HTML

A map is two pieces of HTML: an element with the description of the map in it, followed by a script
that repeats the description, and a second script that draws the map.
-/

namespace MapBlocks

/-- How numbers appear in scripts: positional notation whatever their size, without a point after
whole numbers. -/
def scriptNumbers : Decimal.Layout where
  least? := none
  greatest? := none
  showsPoint := false
  tie := .up
  zero := "0"
  negativeZero := "0"

def scriptNumber (x : Float) : String := scriptNumbers.render x

/-- The text with `<\/` in place of each `</`, so that it cannot end a script. -/
def escapeClosing : List Char → List Char
  | '<' :: '/' :: rest => '<' :: '\\' :: '/' :: escapeClosing rest
  | c :: rest => c :: escapeClosing rest
  | [] => []

theorem escapeClosing_of_ne {c : Char} (other : c ≠ '<') (rest : List Char) :
    escapeClosing (c :: rest) = c :: escapeClosing rest := by
  rw [escapeClosing.eq_def]
  split <;> simp_all

theorem head?_escapeClosing (text : List Char) : (escapeClosing text).head? = text.head? := by
  fun_cases escapeClosing text <;> rfl

/-- A value in a script: its JSON text, or `undefined` if there is none. -/
def scriptLiteral : Option Json → String
  | some value => String.ofList (escapeClosing value.render)
  | none => "undefined"

namespace Map.Spec

/-- The description in base64: the bytes of its JSON text. -/
def encoded (spec : Spec) : String := Text.Base64.encodeString spec.toJson.text

/-- What the element that holds the map is called for those who cannot see it. -/
def label (spec : Spec) : String :=
  match spec.id with
  | some id => if id = "" then "Interactive map" else "Interactive map: " ++ id
  | none => "Interactive map"

/-- The element that holds the map. -/
def element (spec : Spec) : String :=
  "<div class=\"qz-leaflet\" id=\"" ++ Text.Html.escaped spec.elementId
    ++ "\" style=\"height:" ++ Text.Html.escaped spec.height
    ++ ";width:" ++ Text.Html.escaped spec.width
    ++ "\" aria-label=\"" ++ Text.Html.escaped spec.label
    ++ "\" data-map-spec=\"" ++ spec.encoded ++ "\"></div>"

def scriptOpening : String := "<script type=\"text/javascript\">"

def scriptClosing : String := "</script>"

/-- The keys that the script repeats, in order, with the literals of their values. -/
def entries (spec : Spec) : List (String × String) :=
  let number : Float → Json := fun x => .num (.real x)
  [("id", scriptLiteral (spec.id.map .str)),
    ("height", scriptLiteral (some (.str spec.height))),
    ("width", scriptLiteral (some (.str spec.width))),
    ("lat", scriptLiteral (spec.lat.map number)),
    ("lng", scriptLiteral (spec.lng.map number)),
    ("bounds", scriptLiteral (spec.bounds.map Bounds.toJson)),
    ("minZoom", scriptLiteral (spec.minZoom.map number)),
    ("maxZoom", scriptLiteral (spec.maxZoom.map number)),
    ("defaultZoom", scriptLiteral (some (number spec.defaultZoom))),
    ("zoomDelta", scriptLiteral (spec.zoomDelta.map number)),
    ("unit", scriptLiteral (some spec.unit.toJson)),
    ("scale", scriptLiteral (some (.bool spec.scale))),
    ("recenter", scriptLiteral (some (.bool spec.recenter))),
    ("darkMode", scriptLiteral (some (.bool spec.darkMode))),
    ("tileServer", scriptLiteral (spec.tileServer.map TileLayer.listToJson)),
    ("overlay", scriptLiteral (spec.overlay.map TileLayer.listToJson)),
    ("images", scriptLiteral (spec.images.map .str)),
    ("markers", scriptLiteral (spec.markers.map Marker.listToJson))]

/-- The lines of a script that give literals for keys, with commas between them. -/
def entryLines : List (String × String) → List String
  | [] => []
  | [(key, literal)] => ["    " ++ key ++ ": " ++ literal]
  | (key, literal) :: rest => ("    " ++ key ++ ": " ++ literal ++ ",") :: entryLines rest

/-- The element that holds the map and the script that repeats its description. -/
def container (spec : Spec) : String :=
  "\n".intercalate
    ([spec.element, scriptOpening, "var obsidianInfo = \x7b"] ++ entryLines spec.entries
      ++ ["\x7d;", "var getUrl = window.location;",
        "baseUrl = getUrl.protocol + \"//\" + getUrl.host + \"/\" + getUrl.pathname.split('/')[1];",
        scriptClosing])

/-- The corners of the image, of which the second is scaled. -/
def imageBounds (spec : Spec) (scale : Scale) : String :=
  match spec.bounds with
  | none => "[[undefined],[NaN, NaN]]"
  | some bounds =>
      let far := scale.farCorner bounds.second
      "[[" ++ scriptNumber bounds.first.first ++ "," ++ scriptNumber bounds.first.second ++ "],["
        ++ scriptNumber far.first ++ ", " ++ scriptNumber far.second ++ "]]"

/-- The lines of the script that put the image on the map, if there is one. -/
def imageLines (spec : Spec) (scale : Scale) : List String :=
  match spec.images with
  | none => []
  | some path =>
      ["var imageUrl = " ++ scriptLiteral (some (.str path)) ++ ",",
        "    imageBounds = " ++ spec.imageBounds scale ++ ";",
        "L.imageOverlay(imageUrl, imageBounds).addTo(map);"]

/-- The script that draws the map. -/
def initScript (spec : Spec) (scale : Scale) : String :=
  let center := scale.center spec.lat spec.lng
  "\n".intercalate
    ([scriptOpening,
      "var map = L.map(" ++ scriptLiteral (some (.str spec.elementId)) ++ ", \x7b",
      "    center: [" ++ scriptNumber center.first ++ ", " ++ scriptNumber center.second ++ "],",
      "    zoom: " ++ scriptNumber (scale.zoom spec.defaultZoom),
      "\x7d);"] ++ spec.imageLines scale ++ [scriptClosing])

/-- The two nodes that show the map. -/
def nodes (spec : Spec) (scale : Scale) : List Markdown.Node :=
  [.html spec.container, .html (spec.initScript scale)]

end Map.Spec

end MapBlocks
