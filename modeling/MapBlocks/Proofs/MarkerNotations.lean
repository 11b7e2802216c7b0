import MapBlocks.Map.Marker
import MapBlocks.Proofs.ListedParts
import MapBlocks.Proofs.WholeNumbers
import MapBlocks.Proofs.WordSizedValues

/-!
# The notations of a marker

A marker may be given by name, in a record, or by place, in a sequence or in one
text, with or without a label.  By place the parts are taken as texts: they are
written out and trimmed before they are read.  All notations give the same marker.
-/

namespace MapBlocks

open Yaml (Value)

namespace Yaml.Value

theorem bind_filter_isBlank
    {α : Type} {read : Value → Option α}
    (unread : ∀ value, value.isBlank = true → read value = none) (value? : Option Value) :
    (value?.filter (!·.isBlank)).bind read = value?.bind read := by
  cases value? with
  | none => rfl
  | some value =>
      rw [Option.filter_some]
      cases blank : value.isBlank with
      | true => exact (unread value blank).symm
      | false => rfl

theorem scalarText?_of_isBlank (value : Value) (blank : value.isBlank = true) :
    value.scalarText? = none := by
  cases value with
  | null => rfl
  | bad => rfl
  | _ => cases blank

end Yaml.Value

namespace Map

open Yaml.Value (valueOf?)

theorem toNumber?_of_isBlank (value : Value) (blank : value.isBlank = true) :
    toNumber? value = none := by
  cases value with
  | null => rfl
  | bad => rfl
  | _ => cases blank

theorem parseNumber?_trimmed (text : String) :
    parseNumber? (Text.trimmed text) = parseNumber? text := by
  simp only [parseNumber?, Text.trimmed, String.toList_ofList, Text.trim_trim]

namespace Marker

/-- A number that is written out is read as the same number. -/
theorem parseNumber?_partText {value : Value} (sized : value.WordSized) :
    parseNumber? (partText value) = toNumber? value := by
  have empty : parseNumber? "" = none := by decide
  rw [partText, parseNumber?_trimmed]
  cases sized with
  | int fits => exact parseNumber?_of_int fits rfl
  | real text => rfl
  | str text => rfl
  | bool value => cases value <;> decide
  | null => exact empty
  | bad => exact empty
  | seq each => exact empty
  | map keys values => exact empty

theorem withoutLabel_of_number
    {lat : String} (accepted : (parseNumber? lat).isSome = true) (others : List String) :
    withoutLabel (lat :: others) = lat :: others := by
  rw [withoutLabel, if_neg]
  rw [Option.isNone_iff_eq_none]
  exact Option.isSome_iff_ne_none.mp accepted

theorem withoutLabel_of_label
    {label : String} (unread : parseNumber? label = none) (others : List String) :
    withoutLabel (label :: others) = others :=
  if_pos (Option.isNone_iff_eq_none.mpr unread)

theorem ofParts?_of_number
    {lat : String} (accepted : (parseNumber? lat).isSome = true) (lng : String)
    (others : List String) :
    ofParts? (lat :: lng :: others) = (do
      let lat ← parseNumber? lat
      let lng ← parseNumber? lng
      some ⟨lat, lng, others[0]?.bind Text.nonempty?, others[1]?.bind Text.nonempty?⟩) := by
  rw [ofParts?, withoutLabel_of_number accepted]
  rfl

theorem ofParts?_of_label
    {label lat : String} (unread : parseNumber? label = none)
    (accepted : (parseNumber? lat).isSome = true) (others : List String) :
    ofParts? (label :: lat :: others) = ofParts? (lat :: others) := by
  rw [ofParts?, ofParts?, withoutLabel_of_label unread, withoutLabel_of_number accepted]

/-- A part is not there, null, or a scalar whose text is kept as it is. -/
def IsPlainPart (part? : Option Value) : Prop :=
  ∀ value ∈ part?, value = .null ∨ ∃ text, value.scalarText? = some text ∧ Text.IsPlain text

theorem nonempty?_partText {part? : Option Value} (plain : IsPlainPart part?) :
    Text.nonempty? (partText (part?.getD .null)) = part?.bind Value.scalarText? := by
  cases part? with
  | none => decide
  | some value =>
      rcases plain value rfl with rfl | ⟨text, shown, plain⟩
      · decide
      · rw [Option.getD_some, Option.bind_some, partText, shown, Option.getD_some,
          plain.nonempty?_trimmed]

/-- A record has a part under one of two names, and no value under the other. -/
def GivenAs (entries : List (Value × Value)) (name other : String) (part? : Option Value) : Prop :=
  valueOf? name entries = part? ∧ (Value.map entries).field? other = none ∨
    valueOf? other entries = part? ∧ (Value.map entries).field? name = none

theorem field?_of_givenAs
    {entries : List (Value × Value)} {name other : String} {part? : Option Value}
    (given : GivenAs entries name other part?) :
    ((Value.map entries).field? name <|> (Value.map entries).field? other) =
      part?.filter (!·.isBlank) := by
  rcases given with ⟨found, absent⟩ | ⟨found, absent⟩
  · rw [absent, Value.field?, found]
    cases part?.filter (!·.isBlank) <;> rfl
  · rw [absent, Value.field?, found]
    rfl

/-- The parts of a marker. -/
structure Parts where
  lat : Value
  lng : Value
  link : Option Value
  popup : Option Value

namespace Parts

/-- The marker that some parts make. -/
def marker? (parts : Parts) : Option Marker := do
  let lat ← toNumber? parts.lat
  let lng ← toNumber? parts.lng
  some ⟨lat, lng, parts.link.bind Value.scalarText?, parts.popup.bind Value.scalarText?⟩

/-- Parts that are the same in all notations. -/
structure IsPlain (parts : Parts) : Prop where
  accepted : (toNumber? parts.lat).isSome = true
  lat : parts.lat.WordSized
  lng : parts.lng.WordSized
  link : IsPlainPart parts.link
  popup : IsPlainPart parts.popup

/-- A record names the parts of a marker. -/
structure NamedIn (parts : Parts) (entries : List (Value × Value)) : Prop where
  lat : valueOf? "lat" entries = some parts.lat
  lng : GivenAs entries "lng" "long" (some parts.lng)
  link : valueOf? "link" entries = parts.link
  popup : GivenAs entries "popup" "desc" parts.popup

variable {parts : Parts}

theorem ofValue?_map {entries : List (Value × Value)} (named : parts.NamedIn entries) :
    ofValue? (.map entries) = parts.marker? := by
  rw [ofValue?, ofRecord?, field?_of_givenAs named.lng, field?_of_givenAs named.popup, Value.field?,
    Value.field?, named.lat, named.link, Value.bind_filter_isBlank toNumber?_of_isBlank,
    Value.bind_filter_isBlank toNumber?_of_isBlank,
    Value.bind_filter_isBlank Value.scalarText?_of_isBlank,
    Value.bind_filter_isBlank Value.scalarText?_of_isBlank]
  rfl

variable {tail : List Value}

theorem ofValue?_seq
    (plain : parts.IsPlain) (listed : Text.Listed .null [parts.link, parts.popup] tail) :
    ofValue? (.seq (parts.lat :: parts.lng :: tail)) = parts.marker? := by
  have accepted := plain.accepted
  rw [← parseNumber?_partText plain.lat] at accepted
  have empty : partText .null = "" := by decide
  rw [ofValue?, List.map_cons, List.map_cons, ofParts?_of_number accepted,
    parseNumber?_partText plain.lat, parseNumber?_partText plain.lng,
    listed.bind_nonempty? empty rfl, listed.bind_nonempty? empty rfl,
    nonempty?_partText plain.link, nonempty?_partText plain.popup, marker?]

theorem ofValue?_seq_of_label
    (plain : parts.IsPlain) {label : Value}
    (unread : parseNumber? (label.scalarText?.getD "") = none) :
    ofValue? (.seq (label :: parts.lat :: tail)) = ofValue? (.seq (parts.lat :: tail)) := by
  have accepted := plain.accepted
  rw [← parseNumber?_partText plain.lat] at accepted
  rw [← parseNumber?_trimmed] at unread
  rw [ofValue?, ofValue?, List.map_cons, List.map_cons]
  exact ofParts?_of_label unread accepted _

/-- A record in a payload can be written as a sequence, for its integers are of 64 bits. -/
theorem ofValue?_seq_of_payload
    {text key : String} {entries : List (Value × Value)}
    (given : (Payload.parseOrEmpty text).get? key = some (.map entries))
    (named : parts.NamedIn entries) (accepted : (toNumber? parts.lat).isSome = true)
    (link : IsPlainPart parts.link) (popup : IsPlainPart parts.popup)
    (listed : Text.Listed .null [parts.link, parts.popup] tail) :
    ofValue? (.seq (parts.lat :: parts.lng :: tail)) = ofValue? (.map entries) := by
  have sized := Payload.wordSized_of_get? given
  have lng : parts.lng.WordSized := by
    rcases named.lng with ⟨found, -⟩ | ⟨found, -⟩
    · exact sized.of_valueOf? found
    · exact sized.of_valueOf? found
  rw [ofValue?_seq ⟨accepted, sized.of_valueOf? named.lat, lng, link, popup⟩ listed,
    ofValue?_map named]

end Parts

/-- Texts in a sequence are read as they are in one text, with commas between them. -/
theorem ofValue?_intercalate
    {texts pieces : List String} (free : ∀ text ∈ texts, ',' ∉ text.toList)
    (padded : List.Forall₂ Text.Pads texts pieces) :
    ofValue? (.str (",".intercalate pieces)) = ofValue? (.seq (texts.map .str)) := by
  have single (text : String) : ofValue? (.str text) = ofParts? (Text.fields ',' text) := rfl
  have same : (texts.map Value.str).map partText = texts.map Text.trimmed := by
    rw [List.map_map]
    rfl
  rw [single, ofValue?, same]
  cases texts with
  | nil =>
      rw [List.forall₂_nil_left_iff.mp padded]
      rfl
  | cons text texts =>
      have comma : "," = String.singleton ',' := rfl
      rw [comma, Text.fields_intercalate rfl (List.cons_ne_nil _ _) free padded]

/-- The notations of a marker agree: a record of its parts, a sequence of them, the sequence after a
label, and a sequence of texts and the text in which they are joined. -/
theorem notations_agree :
    (∀ (parts : Parts) (entries : List (Value × Value)) (tail : List Value),
      parts.IsPlain → parts.NamedIn entries →
      Text.Listed .null [parts.link, parts.popup] tail →
        ofValue? (.map entries) = parts.marker? ∧
        ofValue? (.seq (parts.lat :: parts.lng :: tail)) = parts.marker? ∧
        ∀ label : Value, parseNumber? (label.scalarText?.getD "") = none →
          ofValue? (.seq (label :: parts.lat :: parts.lng :: tail)) = parts.marker?) ∧
    ∀ texts pieces : List String, (∀ text ∈ texts, ',' ∉ text.toList) →
      List.Forall₂ Text.Pads texts pieces →
        ofValue? (.seq (texts.map .str)) = ofValue? (.str (",".intercalate pieces)) := by
  constructor
  · intro parts entries tail plain named listed
    have sequence := Parts.ofValue?_seq plain listed
    refine ⟨Parts.ofValue?_map named, sequence, ?_⟩
    intro label unread
    rw [Parts.ofValue?_seq_of_label plain unread, sequence]
  · intro texts pieces free padded
    exact (ofValue?_intercalate free padded).symm

/-- The marker of a harbour, with a longitude that no double has. -/
theorem notations_agree_on_harbour :
    let parts : Parts := ⟨.str "0x10", .int (2 ^ 62 + 1), none, some (.str "Harbour")⟩
    let entries : List (Value × Value) :=
      [(.str "desc", .str "Harbour"), (.str "lat", .str "0x10"), (.str "long", .int (2 ^ 62 + 1))]
    let tail : List Value := [.null, .str "Harbour"]
    (ofValue? (.map entries) = parts.marker? ∧
      ofValue? (.seq (parts.lat :: parts.lng :: tail)) = parts.marker? ∧
      ofValue? (.seq (.str "poi" :: parts.lat :: parts.lng :: tail)) = parts.marker?) ∧
    ofValue? (.seq [.str "poi", .str "1", .str "2"]) = ofValue? (.str "poi, 1,2 ") := by
  intro parts entries tail
  have sized : (Value.int (2 ^ 62 + 1)).WordSized := .int (by decide)
  have popup : IsPlainPart parts.popup := by
    rintro value ⟨⟩
    exact .inr ⟨_, rfl, by decide⟩
  have plain : parts.IsPlain := ⟨by decide, .str _, sized, nofun, popup⟩
  have named : parts.NamedIn entries := ⟨rfl, .inr ⟨rfl, rfl⟩, rfl, .inr ⟨rfl, rfl⟩⟩
  have listed : Text.Listed .null [parts.link, parts.popup] tail :=
    .next none (.next _ (.leftOut (List.forall_mem_nil _)))
  obtain ⟨record, sequence, labelled⟩ := notations_agree.1 parts entries tail plain named listed
  refine ⟨⟨record, sequence, labelled (.str "poi") (by decide)⟩, ?_⟩
  have padded : List.Forall₂ Text.Pads ["poi", "1", "2"] ["poi", " 1", "2 "] := by
    have blank : ∀ c ∈ [' '], Text.isBlank c = true := List.forall_mem_singleton.mpr rfl
    exact .cons (.refl _) <| .cons ⟨[' '], [], blank, nofun, by decide⟩ <|
      .cons ⟨[], [' '], nofun, blank, by decide⟩ .nil
  exact notations_agree.2 _ _ (by decide) padded

end Marker

end Map

end MapBlocks
