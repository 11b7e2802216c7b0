import MapBlocks.Proofs.DescriptionCopies
import MapBlocks.Proofs.FiniteDoubles
import MapBlocks.Proofs.SpecDecoding
import MapBlocks.Proofs.TrimmedTexts

/-!
# The invariant of descriptions

Whatever the text of a map block says, in whichever of the accepted notations, the
description made from it has finite numbers only, layers with a template, markers
with coordinates, and an image with a name.  JSON has no other use for `null` here
than numbers that are not finite, so a description is written without it.
-/

namespace MapBlocks

namespace Map

open Yaml (Value)

theorem isFinite_of_radixNumber?
    {text : List Char} {x : Float} (read : radixNumber? text = some x) : x.isFinite = true := by
  unfold radixNumber? at read
  split at read
  · simp only [Option.bind_eq_bind, Option.bind_eq_some_iff, Option.ite_none_right_eq_some,
      Option.some.injEq] at read
    obtain ⟨_, -, value, -, -, rfl⟩ := read
    exact Decimal.isFinite_ofWord value
  · cases read

theorem isFinite_of_parseNumber?
    {text : String} {x : Float} (read : parseNumber? text = some x) : x.isFinite = true := by
  simp only [parseNumber?, Option.orElse_eq_orElse, Option.orElse_eq_or,
    Option.or_eq_some_iff] at read
  rcases read with whole | ⟨-, decimal⟩
  · exact isFinite_of_radixNumber? whole
  · exact (Option.filter_eq_some_iff.mp decimal).2

theorem isFinite_of_toNumber?
    {value : Value} {x : Float} (read : toNumber? value = some x) : x.isFinite = true := by
  cases value with
  | int number =>
      cases read
      exact Decimal.isFinite_ofInt number
  | real text => exact isFinite_of_parseNumber? read
  | str text => exact isFinite_of_parseNumber? read
  | _ => cases read

theorem isFinite_of_bind_toNumber?
    {value? : Option Value} {x : Float} (read : value?.bind toNumber? = some x) :
    x.isFinite = true := by
  obtain ⟨value, -, number⟩ := Option.bind_eq_some_iff.mp read
  exact isFinite_of_toNumber? number

theorem Corner.isFinite_of_ofValue?
    {value : Value} {corner : Corner} (read : ofValue? value = some corner) :
    ∀ x ∈ corner.numbers, x.isFinite = true := by
  unfold ofValue? at read
  split at read
  · simp only [Option.bind_eq_bind, Option.bind_eq_some_iff, Option.some.injEq] at read
    obtain ⟨first, firstRead, second, secondRead, rfl⟩ := read
    simp only [numbers, List.forall_mem_cons, List.not_mem_nil, false_implies, implies_true,
      and_true]
    exact ⟨isFinite_of_toNumber? firstRead, isFinite_of_toNumber? secondRead⟩
  · cases read

theorem Bounds.isFinite_of_ofValue?
    {value : Value} {bounds : Bounds} (read : ofValue? value = some bounds) :
    ∀ x ∈ bounds.numbers, x.isFinite = true := by
  unfold ofValue? at read
  split at read
  · simp only [Option.bind_eq_bind, Option.bind_eq_some_iff, Option.some.injEq] at read
    obtain ⟨first, firstRead, second, secondRead, rfl⟩ := read
    exact List.forall_mem_append.mpr
      ⟨Corner.isFinite_of_ofValue? firstRead, Corner.isFinite_of_ofValue? secondRead⟩
  · cases read

/-- A scalar that counts as true is not shown as an empty text. -/
theorem ne_empty_of_scalarText?
    {value : Value} {text : String} (truthy : value.isTruthy = true)
    (shown : value.scalarText? = some text) : text ≠ "" := by
  cases value with
  | bool value =>
      cases value <;> cases shown
      all_goals decide
  | int number =>
      cases shown
      have digits := Decimal.digitsOf_ne_nil number.natAbs
      rw [Decimal.digitsOf] at digits
      intro empty
      have none := congrArg String.toList empty
      rw [String.toList_ofList] at none
      split at none
      · cases none
      · exact digits none
  | real spelling =>
      cases shown
      rintro rfl
      have unspelled : Value.isNonzeroReal "" = false := by decide
      rw [Value.isTruthy, unspelled] at truthy
      cases truthy
  | str content =>
      cases shown
      simpa [Value.isTruthy] using truthy
  | _ => cases shown

theorem TileLayer.template_ne_empty_of_parse?
    {text : String} {layer : TileLayer} (read : parse? text = some layer) :
    layer.template ≠ "" := by
  unfold parse? at read
  split at read
  · cases read
  · obtain ⟨template, given, rfl⟩ := Option.map_eq_some_iff.mp read
    rw [Text.nonempty?, Option.ite_none_left_eq_some] at given
    obtain ⟨nonempty, same⟩ := given
    cases same
    exact nonempty

theorem TileLayer.template_ne_empty_of_ofRecord?
    {record : Value} {layer : TileLayer} (read : ofRecord? record = some layer) :
    layer.template ≠ "" := by
  simp only [ofRecord?, Option.bind_eq_bind, Option.bind_eq_some_iff, Option.some.injEq,
    Option.filter_eq_some_iff] at read
  obtain ⟨value, ⟨-, truthy⟩, template, shown, rfl⟩ := read
  exact ne_empty_of_scalarText? truthy shown

theorem TileLayer.template_ne_empty
    {value : Value} {layer : TileLayer} (read : ofValue? value = some layer) :
    layer.template ≠ "" := by
  unfold ofValue? at read
  split at read
  · cases read
  · split at read
    · exact template_ne_empty_of_ofRecord? read
    · cases read
    · obtain ⟨text, -, parsed⟩ := Option.bind_eq_some_iff.mp read
      exact template_ne_empty_of_parse? parsed

/-- Some layers, each with a template. -/
structure TileLayer.AreUsable (layers : List TileLayer) : Prop where
  nonempty : layers ≠ []
  templates : ∀ layer ∈ layers, layer.template ≠ ""

theorem TileLayer.areUsable_of_listOfValue?
    {value : Value} {layers : List TileLayer} (read : listOfValue? value = some layers) :
    AreUsable layers := by
  unfold listOfValue? at read
  split at read
  · cases read
  · rw [Option.ite_none_left_eq_some] at read
    obtain ⟨nonempty, same⟩ := read
    cases same
    refine ⟨by simpa using nonempty, fun layer member => ?_⟩
    split at member
    · obtain ⟨item, -, itemRead⟩ := List.mem_filterMap.mp member
      exact template_ne_empty itemRead
    · exact template_ne_empty (Option.mem_toList.mp member)

theorem Marker.isFinite_of_ofRecord?
    {record : Value} {marker : Marker} (read : ofRecord? record = some marker) :
    ∀ x ∈ marker.numbers, x.isFinite = true := by
  simp only [ofRecord?, Option.bind_eq_bind, Option.bind_eq_some_iff, Option.some.injEq] at read
  obtain ⟨lat, ⟨_, -, latRead⟩, lng, ⟨_, -, lngRead⟩, rfl⟩ := read
  simp only [numbers, List.forall_mem_cons, List.not_mem_nil, false_implies, implies_true,
    and_true]
  exact ⟨isFinite_of_toNumber? latRead, isFinite_of_toNumber? lngRead⟩

theorem Marker.isFinite_of_ofParts?
    {parts : List String} {marker : Marker} (read : ofParts? parts = some marker) :
    ∀ x ∈ marker.numbers, x.isFinite = true := by
  simp only [ofParts?, Option.bind_eq_bind, Option.bind_eq_some_iff, Option.some.injEq] at read
  obtain ⟨lat, ⟨_, -, latRead⟩, lng, ⟨_, -, lngRead⟩, rfl⟩ := read
  simp only [numbers, List.forall_mem_cons, List.not_mem_nil, false_implies, implies_true,
    and_true]
  exact ⟨isFinite_of_parseNumber? latRead, isFinite_of_parseNumber? lngRead⟩

theorem Marker.isFinite_of_ofValue?
    {value : Value} {marker : Marker} (read : ofValue? value = some marker) :
    ∀ x ∈ marker.numbers, x.isFinite = true := by
  unfold ofValue? at read
  split at read
  · exact isFinite_of_ofRecord? read
  · exact isFinite_of_ofParts? read
  · obtain ⟨text, -, parts⟩ := Option.bind_eq_some_iff.mp read
    exact isFinite_of_ofParts? parts

theorem Marker.isFinite_of_listOfValue?
    {value : Value} {markers : List Marker} (read : listOfValue? value = some markers) :
    ∀ marker ∈ markers, ∀ x ∈ marker.numbers, x.isFinite = true := by
  unfold listOfValue? at read
  intro marker member
  split at read
  · cases read
  · split at read
    · cases read
      obtain ⟨item, -, itemRead⟩ := List.mem_filterMap.mp member
      exact isFinite_of_ofValue? itemRead
    · cases read
      exact isFinite_of_ofValue? (Option.mem_toList.mp member)

/-- A path in a directory, with a name that is neither empty nor surrounded by blanks. -/
def IsImagePath (directory path : String) : Prop :=
  ∃ name, path = directory ++ name ∧ name ≠ "" ∧ Text.IsTrimmed name.toList

theorem isTrimmed_of_imageName?
    {value : Value} {name : String} (read : imageName? value = some name) :
    name ≠ "" ∧ Text.IsTrimmed name.toList := by
  fun_induction imageName? value with
  | case1 item induction => exact induction read
  | case2 => cases read
  | case3 => cases read
  | case4 value _ text shown trimmed nonempty =>
      rw [← Option.some.inj read]
      refine ⟨nonempty, ?_⟩
      change Text.IsTrimmed (Text.trimmed text).toList
      rw [Text.trimmed, String.toList_ofList]
      exact Text.isTrimmed_trim text.toList

theorem isImagePath_of_imagePath?
    {payload : Payload} {directory path : String}
    (read : imagePath? payload directory = some path) : IsImagePath directory path := by
  simp only [imagePath?, Option.bind_eq_bind, Option.bind_eq_some_iff, Option.some.injEq] at read
  obtain ⟨value, -, name, named, rfl⟩ := read
  exact ⟨name, rfl, isTrimmed_of_imageName? named⟩

/-- What holds of every description that a map block gives.  `assets` is the directory of
images. -/
structure Spec.IsSound (assets : String) (spec : Spec) : Prop where
  lat : ∀ x ∈ spec.lat, x.isFinite = true
  lng : ∀ x ∈ spec.lng, x.isFinite = true
  bounds : ∀ bounds ∈ spec.bounds, ∀ x ∈ bounds.numbers, x.isFinite = true
  minZoom : ∀ x ∈ spec.minZoom, x.isFinite = true
  maxZoom : ∀ x ∈ spec.maxZoom, x.isFinite = true
  defaultZoom : spec.defaultZoom.isFinite = true
  zoomDelta : ∀ x ∈ spec.zoomDelta, x.isFinite = true
  tileServer : ∀ layers ∈ spec.tileServer, TileLayer.AreUsable layers
  overlay : ∀ layers ∈ spec.overlay, TileLayer.AreUsable layers
  images : ∀ path ∈ spec.images, IsImagePath assets path
  markers : ∀ markers ∈ spec.markers, ∀ marker ∈ markers,
    ∀ x ∈ marker.numbers, x.isFinite = true

theorem Spec.isSound_ofPayload (assets : String) (payload : Payload) :
    IsSound assets (ofPayload assets payload) where
  lat _ read := isFinite_of_bind_toNumber? read
  lng _ read := isFinite_of_bind_toNumber? read
  bounds bounds read := by
    obtain ⟨value, -, read⟩ := Option.bind_eq_some_iff.mp read
    exact Bounds.isFinite_of_ofValue? read
  minZoom _ read := isFinite_of_bind_toNumber? read
  maxZoom _ read := isFinite_of_bind_toNumber? read
  defaultZoom := by
    have assumed : default.defaultZoom.isFinite = true := by decide
    rw [ofPayload]
    cases read : (payload.get? "defaultZoom").bind toNumber? with
    | none => exact assumed
    | some x => exact isFinite_of_bind_toNumber? read
  zoomDelta _ read := isFinite_of_bind_toNumber? read
  tileServer layers read := by
    simp only [ofPayload, Option.orElse_eq_orElse, Option.orElse_eq_or, Option.mem_def,
      Option.or_eq_some_iff] at read
    rcases read with server | ⟨-, tiles⟩
    · obtain ⟨value, -, read⟩ := Option.bind_eq_some_iff.mp server
      exact TileLayer.areUsable_of_listOfValue? read
    · obtain ⟨value, -, read⟩ := Option.bind_eq_some_iff.mp tiles
      exact TileLayer.areUsable_of_listOfValue? read
  overlay layers read := by
    obtain ⟨value, -, read⟩ := Option.bind_eq_some_iff.mp read
    exact TileLayer.areUsable_of_listOfValue? read
  images _ read := isImagePath_of_imagePath? read
  markers markers read := by
    obtain ⟨value, -, read⟩ := Option.bind_eq_some_iff.mp read
    exact Marker.isFinite_of_listOfValue? read

end Map

namespace Json

/-- No `null` stands in a value, at any depth. -/
inductive NullFree : Json → Prop where
  | bool (value : Bool) : NullFree (.bool value)
  | num (number : Number) : NullFree (.num number)
  | str (text : String) : NullFree (.str text)
  | arr {items : List Json} : (∀ item ∈ items, NullFree item) → NullFree (.arr items)
  | obj {members : List (String × Json)} :
      (∀ member ∈ members, NullFree member.2) → NullFree (.obj members)

theorem legibleItems_eq_map (items : List Json) : legibleItems items = items.map legible := by
  induction items with
  | nil => rfl
  | cons item rest induction => rw [legibleItems, induction, List.map_cons]

theorem nullFree_legible_arr
    {items : List Json} (free : ∀ item ∈ items, NullFree item.legible) :
    NullFree (legible (.arr items)) := by
  rw [legible, legibleItems_eq_map]
  apply NullFree.arr
  intro item member
  obtain ⟨value, listed, rfl⟩ := List.mem_map.mp member
  exact free value listed

/-- A written record has no `null` if none of its fields that have a value has. -/
theorem nullFree_legible_present
    {fields : List (String × Option Json)}
    (free : ∀ field ∈ fields, ∀ value ∈ field.2, NullFree value.legible) :
    NullFree (legible (.obj (present fields))) := by
  rw [legible]
  apply NullFree.obj
  induction fields with
  | nil =>
      intro member found
      cases found
  | cons field rest induction =>
      obtain ⟨name, value?⟩ := field
      have later := induction fun field listed => free field (List.mem_cons_of_mem _ listed)
      cases value? with
      | none => exact later
      | some value =>
          have first := free (name, some value) List.mem_cons_self value rfl
          exact List.forall_mem_cons.mpr ⟨first, later⟩

theorem nullFree_legible_real {x : Float} (finite : x.isFinite = true) :
    NullFree (legible (.num (.real x))) := by
  rw [legible_real finite]
  exact .num _

/-- The field of a value that may be missing. -/
theorem nullFree_of_mem_map
    {α : Type} {field? : Option α} {write : α → Json}
    (free : ∀ value ∈ field?, NullFree (write value).legible) :
    ∀ json ∈ field?.map write, NullFree json.legible := by
  intro json written
  obtain ⟨value, given, rfl⟩ := Option.mem_map.mp written
  exact free value given

end Json

namespace Map

open Json (NullFree nullFree_legible_present nullFree_legible_arr nullFree_legible_real
  nullFree_of_mem_map)

theorem Corner.nullFree_legible
    {corner : Corner} (finite : ∀ x ∈ corner.numbers, x.isFinite = true) :
    NullFree corner.toJson.legible := by
  apply nullFree_legible_arr
  simp only [numbers, List.forall_mem_cons, List.not_mem_nil, false_implies, implies_true,
    and_true] at finite ⊢
  exact ⟨nullFree_legible_real finite.1, nullFree_legible_real finite.2⟩

theorem Bounds.nullFree_legible
    {bounds : Bounds} (finite : ∀ x ∈ bounds.numbers, x.isFinite = true) :
    NullFree bounds.toJson.legible := by
  apply nullFree_legible_arr
  obtain ⟨first, second⟩ := List.forall_mem_append.mp finite
  simp only [List.forall_mem_cons, List.not_mem_nil, false_implies, implies_true, and_true]
  exact ⟨Corner.nullFree_legible first, Corner.nullFree_legible second⟩

theorem TileLayer.nullFree_legible (layer : TileLayer) : NullFree layer.toJson.legible := by
  apply nullFree_legible_present
  simp only [List.forall_mem_cons, List.not_mem_nil, false_implies, implies_true, and_true]
  refine ⟨?_, ?_, ?_⟩
  · rintro _ ⟨⟩
    exact .str _
  · exact nullFree_of_mem_map fun name _ => .str name
  · exact nullFree_of_mem_map fun attribution _ => .str attribution

theorem Marker.nullFree_legible
    {marker : Marker} (finite : ∀ x ∈ marker.numbers, x.isFinite = true) :
    NullFree marker.toJson.legible := by
  apply nullFree_legible_present
  simp only [numbers, List.forall_mem_cons, List.not_mem_nil, false_implies, implies_true,
    and_true] at finite ⊢
  refine ⟨?_, ?_, ?_, ?_⟩
  · rintro _ ⟨⟩
    exact nullFree_legible_real finite.1
  · rintro _ ⟨⟩
    exact nullFree_legible_real finite.2
  · exact nullFree_of_mem_map fun link _ => .str link
  · exact nullFree_of_mem_map fun popup _ => .str popup

namespace Spec

theorem IsSound.isFinite_of_mem_numbers
    {assets : String} {spec : Spec} (sound : spec.IsSound assets) :
    ∀ x ∈ spec.numbers, x.isFinite = true := by
  intro x member
  simp only [numbers, List.mem_append, Option.mem_toList, List.mem_flatMap,
    List.mem_singleton] at member
  rcases member with
    (((((((lat | lng) | ⟨bounds, given, corner⟩) | least) | greatest) | rfl) | step) |
      ⟨marker, listed, coordinate⟩)
  · exact sound.lat x lat
  · exact sound.lng x lng
  · exact sound.bounds bounds given x corner
  · exact sound.minZoom x least
  · exact sound.maxZoom x greatest
  · exact sound.defaultZoom
  · exact sound.zoomDelta x step
  · cases given : spec.markers with
    | none =>
        rw [given] at listed
        cases listed
    | some markers =>
        rw [given] at listed
        exact sound.markers markers given marker listed x coordinate

/-- Only a number that is not finite would be written as `null`. -/
theorem nullFree_legible
    {spec : Spec} (finite : ∀ x ∈ spec.numbers, x.isFinite = true) :
    NullFree spec.toJson.legible := by
  have text {text? : Option String} : ∀ json ∈ text?.map Json.str, NullFree json.legible :=
    nullFree_of_mem_map fun text _ => .str text
  have real {x? : Option Float} (among : ∀ x ∈ x?, x ∈ spec.numbers) :
      ∀ json ∈ x?.map fun x => Json.num (.real x), NullFree json.legible :=
    nullFree_of_mem_map fun x given => nullFree_legible_real (finite x (among x given))
  have layers {layers? : Option (List TileLayer)} :
      ∀ json ∈ layers?.map TileLayer.listToJson, NullFree json.legible := by
    apply nullFree_of_mem_map
    intro layers _
    apply nullFree_legible_arr
    intro item member
    obtain ⟨layer, -, rfl⟩ := List.mem_map.mp member
    exact layer.nullFree_legible
  apply nullFree_legible_present
  simp only [fields, List.forall_mem_cons, List.not_mem_nil, false_implies, implies_true, and_true]
  refine ⟨text, ?height, ?width, real ?lat, real ?lng, ?bounds, real ?minZoom, real ?maxZoom,
    ?defaultZoom, real ?zoomDelta, ?unit, ?scale, ?recenter, ?darkMode, layers, layers, text,
    ?markers⟩
  case height | width | unit =>
    rintro _ ⟨⟩
    exact .str _
  case scale | recenter | darkMode =>
    rintro _ ⟨⟩
    exact .bool _
  case defaultZoom =>
    rintro _ ⟨⟩
    exact nullFree_legible_real (finite _ (by simp [numbers]))
  case lat | lng | minZoom | maxZoom | zoomDelta =>
    intro x given
    simp [numbers, Option.mem_def.mp given]
  case bounds =>
    apply nullFree_of_mem_map
    intro bounds given
    apply Bounds.nullFree_legible
    intro x member
    exact finite x (mem_numbers_of_bounds given member)
  case markers =>
    apply nullFree_of_mem_map
    intro markers given
    apply nullFree_legible_arr
    intro item member
    obtain ⟨marker, listed, rfl⟩ := List.mem_map.mp member
    apply Marker.nullFree_legible
    intro x coordinate
    exact finite x (mem_numbers_of_marker given listed coordinate)

/-- Every block text gives a sound description, in whose embedded JSON there is no `null`. -/
theorem block_descriptions_are_sound (settings : Settings) (text : String) :
    (ofText settings.assets text).IsSound settings.assets ∧
      ∃ json, (Text.Base64.decodeString? (ofText settings.assets text).encoded).bind Json.read? =
        some json ∧ NullFree json := by
  have sound : (ofText settings.assets text).IsSound settings.assets :=
    isSound_ofPayload settings.assets (Payload.parseOrEmpty text)
  refine ⟨sound, _, read?_encoded _, ?_⟩
  exact nullFree_legible sound.isFinite_of_mem_numbers

end Spec

end Map

end MapBlocks
