import MapBlocks.Proofs.Base64Coding
import MapBlocks.Proofs.WrittenRecords
import MapBlocks.Render

/-!
# Decoding descriptions

A description is read back from the base64 text that the element of a map
carries: the bytes are taken from the text, the JSON value from the bytes and the
fields from the value.  Nothing is lost on the way if all numbers of the
description are finite.
-/

namespace MapBlocks

namespace Json

def real? : Json → Option Float
  | .num (.real value) => some value
  | _ => none

/-- A list of values of one kind. -/
def list? {α : Type} (read : Json → Option α) : Json → Option (List α)
  | .arr items => items.mapM read
  | _ => none

theorem legible_real {x : Float} (finite : x.isFinite = true) :
    legible (.num (.real x)) = .num (.real x) := by
  obtain ⟨negative, significand, exponent, parts, -⟩ := Decimal.parts_of_isFinite finite
  have numeral : (Number.numeral? (.real x)).isSome = true := by
    simp only [Number.numeral?, finite, if_true, parts, Numeral.ofBinary?]
    split <;> rfl
  rw [legible, if_pos numeral]

theorem real?_legible {x : Float} (finite : x.isFinite = true) :
    real? (legible (.num (.real x))) = some x := by
  rw [legible_real finite]
  rfl

theorem list?_legible
    {α : Type} {write : α → Json} {read : Json → Option α} {items : List α}
    (restores : ∀ item ∈ items, read (write item).legible = some item) :
    list? read (legible (.arr (items.map write))) = some items := by
  rw [legible, list?]
  induction items with
  | nil => rfl
  | cons item rest induction =>
      have others := induction fun item later => restores item (List.mem_cons_of_mem _ later)
      rw [List.map_cons, legibleItems, List.mapM_cons, restores item List.mem_cons_self, others]
      rfl

end Json

namespace Map

def Corner.ofJson? : Json → Option Corner
  | .arr [first, second] => do some ⟨← first.real?, ← second.real?⟩
  | _ => none

def Bounds.ofJson? : Json → Option Bounds
  | .arr [first, second] => do some ⟨← Corner.ofJson? first, ← Corner.ofJson? second⟩
  | _ => none

def Units.ofJson? (json : Json) : Option Units := do
  let name ← json.string?
  [Units.metric, .imperial, .both].find? fun units => units.name = name

def TileLayer.ofJson? (json : Json) : Option TileLayer := do
  let fields ← json.record? ["template", "name", "attribution"]
  some {
    template := ← Json.required? fields "template" Json.string?
    name := ← Json.optional? fields "name" Json.string?
    attribution := ← Json.optional? fields "attribution" Json.string? }

def Marker.ofJson? (json : Json) : Option Marker := do
  let fields ← json.record? ["lat", "lng", "link", "popup"]
  some {
    lat := ← Json.required? fields "lat" Json.real?
    lng := ← Json.required? fields "lng" Json.real?
    link := ← Json.optional? fields "link" Json.string?
    popup := ← Json.optional? fields "popup" Json.string? }

/-- A description from its fields. A field that is not there counts as `null`. -/
def Spec.ofFields? (fields : List (String × Json)) : Option Spec := do
  some {
    id := ← Json.optional? fields "id" Json.string?
    height := ← Json.required? fields "height" Json.string?
    width := ← Json.required? fields "width" Json.string?
    lat := ← Json.optional? fields "lat" Json.real?
    lng := ← Json.optional? fields "lng" Json.real?
    bounds := ← Json.optional? fields "bounds" Bounds.ofJson?
    minZoom := ← Json.optional? fields "minZoom" Json.real?
    maxZoom := ← Json.optional? fields "maxZoom" Json.real?
    defaultZoom := ← Json.required? fields "defaultZoom" Json.real?
    zoomDelta := ← Json.optional? fields "zoomDelta" Json.real?
    unit := ← Json.required? fields "unit" Units.ofJson?
    scale := ← Json.required? fields "scale" Json.boolean?
    recenter := ← Json.required? fields "recenter" Json.boolean?
    darkMode := ← Json.required? fields "darkMode" Json.boolean?
    tileServer := ← Json.optional? fields "tileServer" (Json.list? TileLayer.ofJson?)
    overlay := ← Json.optional? fields "overlay" (Json.list? TileLayer.ofJson?)
    images := ← Json.optional? fields "images" Json.string?
    markers := ← Json.optional? fields "markers" (Json.list? Marker.ofJson?) }

/-- A description from its base64 text. -/
def Spec.decode? (text : String) : Option Spec := do
  let json ← Text.Base64.decodeString? text
  let value ← Json.read? json
  let fields ← value.record? fieldNames
  ofFields? fields

def Corner.numbers (corner : Corner) : List Float := [corner.first, corner.second]

def Bounds.numbers (bounds : Bounds) : List Float := bounds.first.numbers ++ bounds.second.numbers

def Marker.numbers (marker : Marker) : List Float := [marker.lat, marker.lng]

/-- All numbers of a description. -/
def Spec.numbers (spec : Spec) : List Float :=
  spec.lat.toList ++ spec.lng.toList ++ spec.bounds.toList.flatMap Bounds.numbers ++
    spec.minZoom.toList ++ spec.maxZoom.toList ++ [spec.defaultZoom] ++ spec.zoomDelta.toList ++
    (spec.markers.getD []).flatMap Marker.numbers

theorem Corner.ofJson?_legible
    {corner : Corner} (finite : ∀ x ∈ corner.numbers, x.isFinite = true) :
    ofJson? corner.toJson.legible = some corner := by
  have written : corner.toJson.legible =
      .arr [Json.legible (.num (.real corner.first)),
        Json.legible (.num (.real corner.second))] := rfl
  rw [written, ofJson?, Json.real?_legible (finite corner.first (by simp [numbers])),
    Json.real?_legible (finite corner.second (by simp [numbers]))]
  rfl

theorem Bounds.ofJson?_legible
    {bounds : Bounds} (finite : ∀ x ∈ bounds.numbers, x.isFinite = true) :
    ofJson? bounds.toJson.legible = some bounds := by
  have written : bounds.toJson.legible =
      .arr [bounds.first.toJson.legible, bounds.second.toJson.legible] := rfl
  rw [written, ofJson?,
    Corner.ofJson?_legible fun x member => finite x (List.mem_append_left _ member),
    Corner.ofJson?_legible fun x member => finite x (List.mem_append_right _ member)]
  rfl

theorem Units.ofJson?_legible (units : Units) : ofJson? units.toJson.legible = some units := by
  cases units <;> rfl

def TileLayer.fields (layer : TileLayer) : List (String × Option Json) :=
  [("template", some (.str layer.template)), ("name", layer.name.map .str),
    ("attribution", layer.attribution.map .str)]

theorem string?_legible {text? : Option String} :
    ∀ text ∈ text?, Json.string? (Json.str text).legible = some text :=
  fun _ _ => rfl

theorem TileLayer.ofJson?_legible (layer : TileLayer) :
    ofJson? layer.toJson.legible = some layer := by
  have distinct : (layer.fields.map Prod.fst).Nodup :=
    (by decide : ["template", "name", "attribution"].Nodup)
  have known : layer.toJson.legible.record? ["template", "name", "attribution"] =
      some (Json.legibleMembers (Json.present layer.fields)) := Json.record?_legible distinct
  have template : ("template", some (.str layer.template)) ∈ layer.fields := by simp [fields]
  have name : ("name", layer.name.map .str) ∈ layer.fields := by simp [fields]
  have attribution : ("attribution", layer.attribution.map .str) ∈ layer.fields := by
    simp [fields]
  simp only [ofJson?, known, Option.bind_eq_bind, Option.bind_some,
    Json.required?_legible distinct template,
    Json.optional?_legible distinct name rfl string?_legible,
    Json.optional?_legible distinct attribution rfl string?_legible]
  rfl

def Marker.fields (marker : Marker) : List (String × Option Json) :=
  [("lat", some (.num (.real marker.lat))), ("lng", some (.num (.real marker.lng))),
    ("link", marker.link.map .str), ("popup", marker.popup.map .str)]

theorem Marker.ofJson?_legible
    {marker : Marker} (finite : ∀ x ∈ marker.numbers, x.isFinite = true) :
    ofJson? marker.toJson.legible = some marker := by
  have distinct : (marker.fields.map Prod.fst).Nodup :=
    (by decide : ["lat", "lng", "link", "popup"].Nodup)
  have known : marker.toJson.legible.record? ["lat", "lng", "link", "popup"] =
      some (Json.legibleMembers (Json.present marker.fields)) := Json.record?_legible distinct
  have lat : ("lat", some (.num (.real marker.lat))) ∈ marker.fields := by simp [fields]
  have lng : ("lng", some (.num (.real marker.lng))) ∈ marker.fields := by simp [fields]
  have link : ("link", marker.link.map .str) ∈ marker.fields := by simp [fields]
  have popup : ("popup", marker.popup.map .str) ∈ marker.fields := by simp [fields]
  simp only [ofJson?, known, Option.bind_eq_bind, Option.bind_some,
    Json.required?_legible distinct lat, Json.required?_legible distinct lng,
    Json.real?_legible (finite marker.lat (by simp [numbers])),
    Json.real?_legible (finite marker.lng (by simp [numbers])),
    Json.optional?_legible distinct link rfl string?_legible,
    Json.optional?_legible distinct popup rfl string?_legible]

namespace Spec

theorem mem_numbers_of_bounds
    {spec : Spec} {bounds : Bounds} (given : spec.bounds = some bounds)
    {x : Float} (member : x ∈ bounds.numbers) : x ∈ spec.numbers := by
  simp [numbers, given, member]

theorem mem_numbers_of_marker
    {spec : Spec} {markers : List Marker} (given : spec.markers = some markers)
    {marker : Marker} (listed : marker ∈ markers) {x : Float} (member : x ∈ marker.numbers) :
    x ∈ spec.numbers := by
  have among : ∃ marker ∈ markers, x ∈ marker.numbers := ⟨marker, listed, member⟩
  simp [numbers, given, among]

/-- Each field is read back from what was written for it. -/
theorem ofFields?_legible
    {spec : Spec} (finite : ∀ x ∈ spec.numbers, x.isFinite = true) :
    ofFields? (Json.legibleMembers (Json.present spec.fields)) = some spec := by
  have distinct : (spec.fields.map Prod.fst).Nodup := (by decide : fieldNames.Nodup)
  -- Each field is found by its place in the table, as all keys are different.
  have field {member : String × Option Json} (i : Nat) (place : spec.fields[i]? = some member) :
      member ∈ spec.fields := List.mem_of_getElem? place
  have given {α : Type} {key : String} {value : Json}
      (member : (key, some value) ∈ spec.fields) (read : Json → Option α) :=
    Json.required?_legible distinct member read
  have text {key : String} {text? : Option String}
      (member : (key, text?.map Json.str) ∈ spec.fields) :=
    Json.optional?_legible distinct member (rfl : Json.string? .null = none) string?_legible
  have real {key : String} {x? : Option Float}
      (member : (key, x?.map fun x => Json.num (.real x)) ∈ spec.fields)
      (among : ∀ x, x? = some x → x ∈ spec.numbers) :=
    Json.optional?_legible distinct member (rfl : Json.real? .null = none)
      fun x some => Json.real?_legible (finite x (among x some))
  have layers {key : String} {layers? : Option (List TileLayer)}
      (member : (key, layers?.map TileLayer.listToJson) ∈ spec.fields) :=
    Json.optional?_legible distinct member (rfl : Json.list? TileLayer.ofJson? .null = none)
      fun layers _ => Json.list?_legible fun layer _ => layer.ofJson?_legible
  have bounds := Json.optional?_legible distinct
    (field 5 rfl : ("bounds", spec.bounds.map Bounds.toJson) ∈ spec.fields)
    (rfl : Bounds.ofJson? .null = none) fun bounds some =>
      Bounds.ofJson?_legible fun x member => finite x (mem_numbers_of_bounds some member)
  have markers := Json.optional?_legible distinct
    (field 17 rfl : ("markers", spec.markers.map Marker.listToJson) ∈ spec.fields)
    (rfl : Json.list? Marker.ofJson? .null = none) fun markers some =>
      Json.list?_legible fun marker listed => Marker.ofJson?_legible fun x member =>
        finite x (mem_numbers_of_marker some listed member)
  have zoom : spec.defaultZoom ∈ spec.numbers := by simp [numbers]
  rw [ofFields?, text (field 0 rfl), given (field 1 rfl), given (field 2 rfl),
    real (field 3 rfl) fun x some => by simp [numbers, some],
    real (field 4 rfl) fun x some => by simp [numbers, some], bounds,
    real (field 6 rfl) fun x some => by simp [numbers, some],
    real (field 7 rfl) fun x some => by simp [numbers, some], given (field 8 rfl),
    real (field 9 rfl) fun x some => by simp [numbers, some], given (field 10 rfl),
    given (field 11 rfl), given (field 12 rfl), given (field 13 rfl), layers (field 14 rfl),
    layers (field 15 rfl), text (field 16 rfl), markers, Json.real?_legible (finite _ zoom),
    Units.ofJson?_legible]
  rfl

theorem decode?_encoded
    {spec : Spec} (finite : ∀ x ∈ spec.numbers, x.isFinite = true) :
    decode? spec.encoded = some spec := by
  have distinct : (spec.fields.map Prod.fst).Nodup := (by decide : fieldNames.Nodup)
  have known : spec.toJson.legible.record? fieldNames =
      some (Json.legibleMembers (Json.present spec.fields)) := Json.record?_legible distinct
  rw [decode?, encoded, Text.Base64.decodeString?_encodeString, Option.bind_eq_bind,
    Option.bind_some, Json.read?_text, Option.bind_eq_bind, Option.bind_some, known]
  exact ofFields?_legible finite

/-- The text that the element of a map carries determines the description, so that
descriptions with the same text are the same. -/
theorem encoded_loses_nothing :
    (∀ spec : Spec, (∀ x ∈ spec.numbers, x.isFinite = true) →
      decode? spec.encoded = some spec) ∧
    ∀ spec other : Spec, (∀ x ∈ spec.numbers ++ other.numbers, x.isFinite = true) →
      spec.encoded = other.encoded → spec = other := by
  refine ⟨fun spec finite => decode?_encoded finite, fun spec other finite same => ?_⟩
  have read := decode?_encoded fun x member => finite x (List.mem_append_left _ member)
  have readOther := decode?_encoded fun x member => finite x (List.mem_append_right _ member)
  rw [same, readOther] at read
  exact (Option.some.inj read).symm

/-- An empty identifier, an empty list and a negative zero are all kept. -/
theorem encoded_loses_nothing_of_empty_parts :
    let spec : Spec :=
      { default with
        id := some "", lat := some 52.5, overlay := some [],
        markers := some [⟨52.5, -0.0, none, some ""⟩] }
    decode? spec.encoded = some spec ∧ spec.encoded ≠ default.encoded := by
  intro spec
  have finite : ∀ x ∈ spec.numbers, x.isFinite = true := by decide +kernel
  have finiteBoth : ∀ x ∈ spec.numbers ++ default.numbers, x.isFinite = true := by decide +kernel
  refine ⟨encoded_loses_nothing.1 spec finite, fun same => ?_⟩
  have equal := encoded_loses_nothing.2 spec default finiteBoth same
  cases congrArg Spec.id equal

end Spec

end Map

end MapBlocks
