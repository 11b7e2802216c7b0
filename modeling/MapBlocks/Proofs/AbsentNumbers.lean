import MapBlocks.Proofs.DefinedNumbers
import MapBlocks.Proofs.DescriptionInvariant
import MapBlocks.Proofs.MarkupLines
import MapBlocks.Settings.OfText

/-!
# Numbers that are not known

A script that draws a map shows `NaN` for a coordinate of its center that is not
known.  It never shows it for anything else: descriptions have finite numbers
only, and settings are refused if their scale could make no number of a finite
one, so that scaling at worst gives infinity.
-/

namespace MapBlocks

theorem scriptNumber_eq_nan_iff (x : Float) : scriptNumber x = "NaN" ↔ x.isNaN = true :=
  Decimal.Layout.render_eq_nan_iff (by decide) (by decide) x

/-- A text with which a script can show a number: it holds no comma, bracket or blank, so that it
is told apart from what stands around it. -/
def IsNumberText (text : String) : Prop := text.toList.all Decimal.isNumberChar = true

theorem isNumberText_scriptNumber (x : Float) : IsNumberText (scriptNumber x) :=
  Decimal.Layout.all_isNumberChar_render rfl rfl x

namespace Scale

/-- A scale that makes numbers of finite numbers. -/
structure IsUsable (scale : Scale) : Prop where
  centerDivisor : isDivisor scale.centerDivisor = true
  boundsDivisor : isDivisor scale.boundsDivisor = true
  zoomFactor : scale.zoomFactor.isFinite = true

theorem isUsable_of_fault? {scale : Scale} (faultless : scale.fault? = none) : scale.IsUsable := by
  unfold fault? at faultless
  split at faultless
  · cases faultless
  · split at faultless
    · cases faultless
    · split at faultless
      · cases faultless
      · rename_i center bounds zoom
        simp only [Bool.not_eq_true', Bool.not_eq_false] at center bounds zoom
        exact ⟨center, bounds, zoom⟩

theorem isNaN_div_of_isDivisor
    {x divisor : Float} (finite : x.isFinite = true) (divides : isDivisor divisor = true) :
    (x / divisor).isNaN = false := by
  simp only [isDivisor, Bool.and_eq_true, Bool.not_eq_true'] at divides
  exact Decimal.isNaN_div finite divides.1 divides.2

namespace IsUsable

variable {scale : Scale} (usable : scale.IsUsable)

include usable

theorem isNaN_coordinate_iff {x? : Option Float} (finite : ∀ x ∈ x?, x.isFinite = true) :
    (scale.coordinate x?).isNaN = true ↔ x? = none := by
  cases x? with
  | none =>
      have absent : unknown.isNaN = true := by decide
      exact iff_of_true absent rfl
  | some x =>
      have defined : (x / scale.centerDivisor).isNaN = false :=
        isNaN_div_of_isDivisor (finite x rfl) usable.centerDivisor
      rw [coordinate, defined]
      exact iff_of_false Bool.false_ne_true (Option.some_ne_none x)

theorem isNaN_zoom {level : Float} (finite : level.isFinite = true) :
    (scale.zoom level).isNaN = false :=
  Decimal.isNaN_mul finite usable.zoomFactor

theorem isNaN_farCorner
    {corner : Map.Corner} (finite : ∀ x ∈ corner.numbers, x.isFinite = true) :
    ∀ x ∈ (scale.farCorner corner).numbers, x.isNaN = false := by
  simp only [Map.Corner.numbers, farCorner, List.forall_mem_cons, List.not_mem_nil, false_implies,
    implies_true, and_true] at finite ⊢
  exact ⟨isNaN_div_of_isDivisor finite.1 usable.boundsDivisor,
    isNaN_div_of_isDivisor finite.2 usable.boundsDivisor⟩

end IsUsable

end Scale

/-- Settings that are read have been checked. -/
theorem Settings.isUsable_of_ofText
    {diagnose : String → String} {source : String} {settings : Settings}
    (accepted : ofText diagnose source = .ok settings) :
    settings.scale.IsUsable := by
  apply Scale.isUsable_of_fault?
  unfold ofText at accepted
  split at accepted
  · cases accepted
    decide
  · split at accepted
    · cases accepted
    · rename_i read _
      cases faulty : read.fault? with
      | some fault => simp [validate, faulty, Except.map] at accepted
      | none =>
          simp only [validate, faulty, Except.map, Except.ok.injEq] at accepted
          subst accepted
          unfold fault? at faulty
          split at faulty
          · cases faulty
          · exact faulty

namespace Map.Spec

variable {scale : Scale} {assets : String} {spec : Spec}

/-- The center and the zoom level of a map, as the script shows them. -/
theorem exists_drawn_numbers (usable : scale.IsUsable) (sound : spec.IsSound assets) :
    ∃ lat lng zoom,
      spec.centerLine scale = "    center: [" ++ lat ++ ", " ++ lng ++ "]," ∧
      spec.zoomLine scale = "    zoom: " ++ zoom ∧
      (∀ shown ∈ [lat, lng, zoom], IsNumberText shown) ∧
      (lat = "NaN" ↔ spec.lat = none) ∧ (lng = "NaN" ↔ spec.lng = none) ∧ zoom ≠ "NaN" := by
  refine ⟨scriptNumber (scale.coordinate spec.lat), scriptNumber (scale.coordinate spec.lng),
    scriptNumber (scale.zoom spec.defaultZoom), rfl, rfl, ?_, ?_, ?_, ?_⟩
  · simp only [List.forall_mem_cons, isNumberText_scriptNumber, List.not_mem_nil, false_implies,
      implies_true, and_true]
  · rw [scriptNumber_eq_nan_iff, usable.isNaN_coordinate_iff sound.lat]
  · rw [scriptNumber_eq_nan_iff, usable.isNaN_coordinate_iff sound.lng]
  · rw [Ne, scriptNumber_eq_nan_iff, usable.isNaN_zoom sound.defaultZoom]
    exact Bool.false_ne_true

/-- The corners of an image, as the script shows them. -/
theorem exists_drawn_corners
    (usable : scale.IsUsable) (sound : spec.IsSound assets)
    {bounds : Bounds} (given : bounds ∈ spec.bounds) :
    ∃ south west north east,
      spec.imageBounds scale =
        "[[" ++ south ++ "," ++ west ++ "],[" ++ north ++ ", " ++ east ++ "]]" ∧
      ∀ shown ∈ [south, west, north, east], IsNumberText shown ∧ shown ≠ "NaN" := by
  have finite : ∀ x ∈ bounds.first.numbers ++ bounds.second.numbers, x.isFinite = true :=
    sound.bounds bounds given
  obtain ⟨near, far⟩ := List.forall_mem_append.mp finite
  have scaled := usable.isNaN_farCorner far
  have shows {x : Float} (defined : x.isNaN = false) :
      IsNumberText (scriptNumber x) ∧ scriptNumber x ≠ "NaN" := by
    refine ⟨isNumberText_scriptNumber x, ?_⟩
    rw [Ne, scriptNumber_eq_nan_iff, defined]
    exact Bool.false_ne_true
  simp only [Corner.numbers, List.forall_mem_cons, List.not_mem_nil, false_implies,
    implies_true, and_true] at near scaled
  refine ⟨scriptNumber bounds.first.first, scriptNumber bounds.first.second,
    scriptNumber (scale.farCorner bounds.second).first,
    scriptNumber (scale.farCorner bounds.second).second, ?_, ?_⟩
  · rw [imageBounds, Option.mem_def.mp given]
  · simp only [List.forall_mem_cons, List.not_mem_nil, false_implies, implies_true, and_true]
    exact ⟨shows (Decimal.isNaN_of_isFinite near.1), shows (Decimal.isNaN_of_isFinite near.2),
      shows scaled.1, shows scaled.2⟩

/-- In the script that draws a map, `NaN` stands for a coordinate of the center that the
description does not give, and for no other number. -/
def MarksAbsence (spec : Spec) (scale : Scale) : Prop :=
  ∃ lat lng zoom,
    spec.initScript scale =
      "\n".intercalate
        ([scriptOpening, spec.targetLine, "    center: [" ++ lat ++ ", " ++ lng ++ "],",
          "    zoom: " ++ zoom, "\x7d);"] ++ spec.imageLines scale ++ [scriptClosing]) ∧
    (∀ shown ∈ [lat, lng, zoom], IsNumberText shown) ∧
    (lat = "NaN" ↔ spec.lat = none) ∧ (lng = "NaN" ↔ spec.lng = none) ∧ zoom ≠ "NaN" ∧
    ∀ bounds ∈ spec.bounds, ∃ south west north east,
      (∀ shown ∈ [south, west, north, east], IsNumberText shown ∧ shown ≠ "NaN") ∧
      ∀ path ∈ spec.images,
        spec.imageLines scale =
          ["var imageUrl = " ++ scriptLiteral (some (.str path)) ++ ",",
            "    imageBounds = [[" ++ south ++ "," ++ west ++ "],[" ++ north ++ ", " ++ east ++
              "]];",
            "L.imageOverlay(imageUrl, imageBounds).addTo(map);"]

/-- So it is with every block text and with all settings that are accepted. -/
theorem nan_marks_absence
    {diagnose : String → String} {source : String} {settings : Settings}
    (accepted : Settings.ofText diagnose source = .ok settings)
    (text : String) : (ofText settings.assets text).MarksAbsence settings.scale := by
  have usable := Settings.isUsable_of_ofText accepted
  have sound : (ofText settings.assets text).IsSound settings.assets :=
    isSound_ofPayload settings.assets (Payload.parseOrEmpty text)
  obtain ⟨lat, lng, zoom, center, level, shown, noLat, noLng, noZoom⟩ :=
    exists_drawn_numbers usable sound
  refine ⟨lat, lng, zoom, ?_, shown, noLat, noLng, noZoom, ?_⟩
  · rw [initScript_eq, drawingLines, center, level]
    rfl
  · intro bounds given
    obtain ⟨south, west, north, east, corners, defined⟩ :=
      exists_drawn_corners usable sound given
    refine ⟨south, west, north, east, defined, ?_⟩
    intro path image
    have opening : "    imageBounds = [[" = "    imageBounds = " ++ "[[" := by decide
    have closing : "]];" = "]]" ++ ";" := by decide
    rw [imageLines, Option.mem_def.mp image, corners, opening, closing]
    simp only [String.append_assoc]

/-- Settings with a divisor of their own, and a block without a longitude. -/
theorem nan_marks_absence_of_half :
    let settings : Settings := ⟨"leaflet", "/z_assets/", true, ⟨0.5, -1.5, 1000⟩⟩
    Settings.ofText (fun _ => "") "scale:\n  center-divisor: 0.5\n" = .ok settings ∧
      (ofText "/z_assets/" "lat: 40\nimage: a.png\nbounds: [[0, 0], [1, 2]]").MarksAbsence
        settings.scale := by
  intro settings
  have scanned : Yaml.tokens? .v11 "scale:\n  center-divisor: 0.5\n" =
      some [.blockMappingStart, .key, .scalar .plain "scale".toList, .value,
        .blockMappingStart, .key, .scalar .plain "center-divisor".toList, .value,
        .scalar .plain "0.5".toList, .blockEnd, .blockEnd] := by
    decide +kernel
  have read : Yaml.documents? .v11 "scale:\n  center-divisor: 0.5\n" =
      some [.mapping .none [(.scalar .none .plain "scale",
        .mapping .none
          [(.scalar .none .plain "center-divisor", .scalar .none .plain "0.5")])]] := by
    rw [Yaml.documents?, scanned]
    apply Yaml.documentsFrom?_of_document? rfl
    simp [Yaml.document?, Yaml.Token.isDirective, Yaml.Node.ofTokens?, Yaml.Node.content?,
      Yaml.nextIs, Yaml.Node.blockEntries?, Yaml.Node.nodeUnless?, Yaml.Node.pairStops,
      Yaml.Node.blockValue?, Yaml.Reading.convert, Yaml.Reading.toPair, Yaml.Reading.after,
      Yaml.Rest.within, Yaml.Rest.tail]
  have accepted :
      Settings.ofText (fun _ => "") "scale:\n  center-divisor: 0.5\n" = .ok settings := by
    rw [Settings.ofText, read]
    rfl
  exact ⟨accepted, nan_marks_absence accepted _⟩

end Map.Spec

end MapBlocks
