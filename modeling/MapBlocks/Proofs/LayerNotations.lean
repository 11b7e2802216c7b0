import MapBlocks.Map.Tile
import MapBlocks.Proofs.ListedParts

/-!
# The notations of a tile layer

A tile layer may be given in a record or in one text with bars between its parts.
Both notations give the layer that was meant.  Where a list of layers is expected,
a single one may be given in its place.
-/

namespace MapBlocks.Map.TileLayer

open Yaml (Value)
open Text (IsPlain Listed Pads)

/-- A layer whose parts are kept as they are. -/
structure HasPlainParts (layer : TileLayer) : Prop where
  template : IsPlain layer.template
  name : ∀ text ∈ layer.name, IsPlain text
  attribution : ∀ text ∈ layer.attribution, IsPlain text

/-- A record names the parts of a layer. -/
structure NamedIn (layer : TileLayer) (entries : List (Value × Value)) : Prop where
  template : (Value.map entries).field? "template" = some (.str layer.template)
  name : (Value.map entries).field? "name" = layer.name.map .str
  attribution : (Value.map entries).field? "attribution" = layer.attribution.map .str

theorem bind_scalarText?_str (text? : Option String) :
    (text?.map Value.str).bind Value.scalarText? = text? := by
  cases text? <;> rfl

theorem nonempty?_trimmed_getD
    {text? : Option String} (plain : ∀ text ∈ text?, IsPlain text) :
    Text.nonempty? (Text.trimmed (text?.getD "")) = text? := by
  cases text? with
  | none => decide
  | some text => exact (plain text rfl).nonempty?_trimmed

variable {layer : TileLayer}

theorem ofValue?_map
    (plain : layer.HasPlainParts) {entries : List (Value × Value)}
    (named : layer.NamedIn entries) : ofValue? (.map entries) = some layer := by
  have truthy : (Value.str layer.template).isTruthy = true :=
    decide_eq_true plain.template.nonempty
  have record : ofValue? (.map entries) = ofRecord? (.map entries) := rfl
  rw [record, ofRecord?, named.template, named.name, named.attribution, bind_scalarText?_str,
    bind_scalarText?_str, Option.filter_some, if_pos truthy]
  rfl

theorem ofValue?_str {text : String} (read : parse? text = some layer) :
    ofValue? (.str text) = some layer := by
  have nonempty : text ≠ "" := by
    rintro rfl
    have none : parse? "" = none := by decide
    rw [none] at read
    cases read
  have truthy : (Value.str text).isTruthy = true := decide_eq_true nonempty
  unfold ofValue?
  rw [truthy]
  exact read

theorem parse?_intercalate
    (plain : layer.HasPlainParts) {segments pieces : List String}
    (listed : Listed "" [some layer.template, layer.name, layer.attribution] segments)
    (free : ∀ segment ∈ segments, '|' ∉ segment.toList)
    (padded : List.Forall₂ Pads segments pieces) :
    parse? ("|".intercalate pieces) = some layer := by
  have bar : "|" = String.singleton '|' := rfl
  have blank : Text.trimmed "" = "" := by decide
  cases listed with
  | leftOut gaps => exact absurd (gaps _ List.mem_cons_self) plain.template.nonempty
  | @next _ _ items others =>
      have name : (items.map Text.trimmed)[0]?.bind Text.nonempty? = layer.name := by
        rw [others.bind_nonempty? blank rfl, nonempty?_trimmed_getD plain.name]
      have attribution : (items.map Text.trimmed)[1]?.bind Text.nonempty? = layer.attribution := by
        rw [others.bind_nonempty? blank rfl, nonempty?_trimmed_getD plain.attribution]
      rw [parse?, bar, Text.fields_intercalate rfl (List.cons_ne_nil _ _) free padded,
        List.map_cons, Option.getD_some]
      simp only [plain.template.nonempty?_trimmed, Option.map_some, List.head?_eq_getElem?, name,
        attribution]

theorem ofValue?_of_falsy {entry : Value} (falsy : entry.isTruthy = false) :
    ofValue? entry = none := by
  unfold ofValue?
  rw [falsy]
  rfl

theorem listOfValue?_of_falsy {entry : Value} (falsy : entry.isTruthy = false) :
    listOfValue? entry = none := by
  unfold listOfValue?
  rw [falsy]
  rfl

/-- One layer is read as the list that holds it. -/
theorem listOfValue?_eq_listOfValue?_seq
    {entry : Value} (single : ∀ items, entry ≠ .seq items) :
    listOfValue? entry = listOfValue? (.seq [entry]) := by
  have listed : [entry].filterMap ofValue? = (ofValue? entry).toList := by
    rw [List.filterMap_cons, List.filterMap_nil]
    cases ofValue? entry <;> rfl
  have filtered : listOfValue? (.seq [entry]) =
      if (ofValue? entry).toList.isEmpty then none else some (ofValue? entry).toList := by
    rw [← listed]
    rfl
  rw [filtered]
  cases counts : entry.isTruthy with
  | false =>
      rw [listOfValue?_of_falsy counts, ofValue?_of_falsy counts]
      rfl
  | true =>
      unfold listOfValue?
      rw [counts]
      cases entry with
      | seq items => exact absurd rfl (single items)
      | _ => rfl

/-- The notations of a layer agree, with blanks around its parts, further parts after them, and
parts that are not there left empty or left out; and so do a layer and the list that holds it. -/
theorem record_and_text_agree :
    (∀ (layer : TileLayer) (entries : List (Value × Value)) (segments pieces : List String),
      layer.HasPlainParts → layer.NamedIn entries →
      Listed "" [some layer.template, layer.name, layer.attribution] segments →
      (∀ segment ∈ segments, '|' ∉ segment.toList) → List.Forall₂ Pads segments pieces →
        ofValue? (.map entries) = some layer ∧
        ofValue? (.str ("|".intercalate pieces)) = some layer) ∧
    ∀ entry : Value, (∀ items, entry ≠ .seq items) →
      listOfValue? entry = listOfValue? (.seq [entry]) := by
  constructor
  · intro layer entries segments pieces plain named listed free padded
    exact ⟨ofValue?_map plain named, ofValue?_str (parse?_intercalate plain listed free padded)⟩
  · intro entry single
    exact listOfValue?_eq_listOfValue?_seq single

/-- A layer without a name, and a flag where layers are expected. -/
theorem record_and_text_agree_without_name :
    let layer : TileLayer := ⟨"/tiles", none, some "OSM"⟩
    (ofValue? (.map [(.str "attribution", .str "OSM"), (.str "template", .str "/tiles")]) =
        some layer ∧
      ofValue? (.str " /tiles||OSM|more ") = some layer) ∧
    listOfValue? (.bool false) = listOfValue? (.seq [.bool false]) := by
  intro layer
  have plain : layer.HasPlainParts := by
    refine ⟨by decide, nofun, ?_⟩
    rintro text ⟨⟩
    decide
  have listed : Listed "" [some layer.template, layer.name, layer.attribution]
      ["/tiles", "", "OSM", "more"] :=
    .next (some _) (.next none (.next (some _) (.beyond _)))
  have padded :
      List.Forall₂ Pads ["/tiles", "", "OSM", "more"] [" /tiles", "", "OSM", "more "] := by
    have blank : ∀ c ∈ [' '], Text.isBlank c = true := List.forall_mem_singleton.mpr rfl
    exact .cons ⟨[' '], [], blank, nofun, by decide⟩ <| .cons (.refl _) <| .cons (.refl _) <|
      .cons ⟨[], [' '], nofun, blank, by decide⟩ .nil
  exact ⟨record_and_text_agree.1 layer _ _ _ plain ⟨rfl, rfl, rfl⟩ listed (by decide) padded,
    record_and_text_agree.2 (.bool false) nofun⟩

end MapBlocks.Map.TileLayer
