import MapBlocks.Map.Spec
import MapBlocks.Proofs.DistinctKeys
import Mathlib.Logic.Relation

/-!
# Spellings of a payload

One map can be described in many ways: entries in another order, entries that say
nothing, another name for a key that has two.  A description is made of the same
few lookups for all of them, and every change of spelling leaves each of these as
it was.  A value that does not fit its tag, or that would hold itself, counts as none
throughout, so it does not keep the second name of its key from being asked.
-/

namespace MapBlocks

open Yaml (Value)

/-! ### Keys -/

/-- A field of a description for which a payload may use either of two keys. -/
inductive SharedField where
  | lng
  | markers
  | tileServer
  deriving DecidableEq

namespace SharedField

/-- The key that is asked first. -/
def key : SharedField → String
  | .lng => "lng"
  | .markers => "marker"
  | .tileServer => "tileServer"

/-- The key that is asked if the first one settles nothing. -/
def other : SharedField → String
  | .lng => "long"
  | .markers => "markers"
  | .tileServer => "tiles"

/-- Whether a value keeps the second key from being asked.  Layers are wanted; any longitude and
any marker will do, even if they cannot be read. -/
def settles : SharedField → Value → Bool
  | .lng, _ => true
  | .markers, _ => true
  | .tileServer, value => (Map.TileLayer.listOfValue? value).isSome

/-- The value that a payload has for a field. -/
def value? (field : SharedField) (payload : Payload) : Option Value :=
  ((payload.get? field.key).filter field.settles).or
    ((payload.get? field.other).filter field.settles)

end SharedField

namespace Payload

/-- The keys of the fields that have one key only. -/
def plainKeys : List String :=
  ["id", "height", "width", "lat", "bounds", "minZoom", "maxZoom", "defaultZoom", "zoomDelta",
    "unit", "scale", "recenter", "darkMode", "overlay", "image"]

/-- The keys that mean something in a payload. -/
def recognisedKeys : List String :=
  plainKeys ++ [SharedField.lng, .markers, .tileServer].flatMap fun field =>
    [field.key, field.other]

/-- Payloads that say the same of every field. -/
structure Agrees (p q : Payload) : Prop where
  plain : ∀ key ∈ plainKeys, p.get? key = q.get? key
  shared : ∀ field : SharedField, field.value? p = field.value? q

namespace Agrees

variable {p q r : Payload}

theorem refl (p : Payload) : p.Agrees p := ⟨fun _ _ => rfl, fun _ => rfl⟩

theorem symm (agrees : p.Agrees q) : q.Agrees p where
  plain key member := (agrees.plain key member).symm
  shared field := (agrees.shared field).symm

theorem trans (first : p.Agrees q) (second : q.Agrees r) : p.Agrees r where
  plain key member := (first.plain key member).trans (second.plain key member)
  shared field := (first.shared field).trans (second.shared field)

end Agrees

theorem mem_recognisedKeys (field : SharedField) :
    field.key ∈ recognisedKeys ∧ field.other ∈ recognisedKeys := by
  cases field <;> decide

theorem agrees_of_get? {p q : Payload} (same : ∀ key ∈ recognisedKeys, p.get? key = q.get? key) :
    p.Agrees q where
  plain key member := same key (List.mem_append_left _ member)
  shared field := by
    obtain ⟨first, second⟩ := mem_recognisedKeys field
    rw [SharedField.value?, SharedField.value?, same _ first, same _ second]

/-- Where any value settles the matter, the first key that has one is asked. -/
theorem first?_eq_value?
    (field : SharedField) (content : ∀ value, field.settles value = true) (payload : Payload) :
    payload.first? [field.key, field.other] = field.value? payload := by
  rw [first?, List.findSome?_cons, List.findSome?_cons, List.findSome?_nil, SharedField.value?]
  cases payload.get? field.key <;> cases payload.get? field.other <;>
    simp [Option.filter, content]

/-- To read the first value that can be read is to read both and to take the first result. -/
theorem orElse_bind {α : Type} (read : Value → Option α) (first second : Option Value) :
    (first.bind read <|> second.bind read) =
      ((first.filter (read · |>.isSome)).or (second.filter (read · |>.isSome))).bind read := by
  have only (value? : Option Value) :
      (value?.filter (read · |>.isSome)).bind read = value?.bind read := by
    cases value? with
    | none => rfl
    | some value => cases found : read value <;> simp [Option.filter, found]
  cases first with
  | none => simp [only]
  | some value => cases found : read value <;> simp [Option.filter_some, found, only]

theorem layers_of_either (payload : Payload) :
    ((payload.get? "tileServer").bind Map.TileLayer.listOfValue?
      <|> (payload.get? "tiles").bind Map.TileLayer.listOfValue?) =
      (SharedField.tileServer.value? payload).bind Map.TileLayer.listOfValue? :=
  orElse_bind _ _ _

end Payload

namespace Map.Spec

/-- A description depends on nothing else. -/
theorem ofPayload_congr (assets : String) {p q : Payload} (agrees : p.Agrees q) :
    ofPayload assets p = ofPayload assets q := by
  have plain := agrees.plain
  simp only [Payload.plainKeys, List.forall_mem_cons, List.not_mem_nil, false_implies,
    implies_true, and_true] at plain
  obtain ⟨id, height, width, lat, bounds, minZoom, maxZoom, defaultZoom, zoomDelta, unit, scale,
    recenter, darkMode, overlay, image⟩ := plain
  have lng (payload : Payload) : payload.first? ["lng", "long"] = SharedField.lng.value? payload :=
    Payload.first?_eq_value? .lng (fun _ => rfl) payload
  have markers (payload : Payload) :
      payload.first? ["marker", "markers"] = SharedField.markers.value? payload :=
    Payload.first?_eq_value? .markers (fun _ => rfl) payload
  simp only [ofPayload, imagePath?, lng, markers, Payload.layers_of_either, agrees.shared, id,
    height, width, lat, bounds, minZoom, maxZoom, defaultZoom, zoomDelta, unit, scale, recenter,
    darkMode, overlay, image]

end Map.Spec

/-! ### Changes of spelling -/

/-- An entry that says nothing: its key means nothing, or it has no value. -/
def IsIdle (entry : Value × Value) : Prop :=
  (∀ key ∈ Payload.recognisedKeys, entry.1 ≠ .str key) ∨ entry.2.isBlank = true

/-- One change of spelling. -/
inductive Respelling : Mapping → Mapping → Prop where
  | reordered {p q : Mapping} (perm : p.entries.Perm q.entries) : Respelling p q
  | idle {p q : Mapping} {entry : Value × Value} (added : p.Adds entry q) (idle : IsIdle entry) :
      Respelling p q
  /-- The first key of a field becomes the second one.  As a mapping has each key once, the second
  one was not there before. -/
  | renamed {p q : Mapping} (field : SharedField) (before : List (Value × Value))
      {after : List (Value × Value)} {value : Value}
      (old : p.entries = before ++ (.str field.key, value) :: after)
      (new : q.entries = before ++ (.str field.other, value) :: after) : Respelling p q
  /-- The second key of a field is added, though the first one settles the matter. -/
  | shadowed {p q : Mapping} (field : SharedField) {value : Value}
      (settled : (p.get? field.key).any field.settles = true)
      (added : p.Adds (.str field.other, value) q) : Respelling p q

namespace Respelling

variable {p q : Mapping}

theorem agrees_of_idle
    {entry : Value × Value} (added : p.Adds entry q) (idle : IsIdle entry) :
    p.toPayload.Agrees q.toPayload := by
  apply Payload.agrees_of_get?
  intro key recognised
  by_cases named : entry.1 = .str key
  · obtain ⟨name, value⟩ := entry
    subst named
    have blank : value.isBlank = true := by
      rcases idle with unknown | blank
      · exact absurd rfl (unknown key recognised)
      · exact blank
    obtain ⟨before, after⟩ := added.get?_self
    rw [before, after, Option.filter_some, blank]
    rfl
  · exact (added.get?_of_ne named).symm

theorem plainKeys_separate (field : SharedField) :
    ∀ key ∈ Payload.plainKeys, field.key ≠ key ∧ field.other ≠ key := by
  cases field <;> decide

theorem fields_separate {field another : SharedField} (different : another ≠ field) :
    field.key ≠ another.key ∧ field.key ≠ another.other ∧
      field.other ≠ another.key ∧ field.other ≠ another.other := by
  revert different
  cases field <;> cases another <;> decide

theorem keys_separate (field : SharedField) : field.key ≠ field.other := by
  cases field <;> decide

/-- A change of the two keys of one field does not concern the others. -/
theorem agrees_of_field
    {p q : Payload} (field : SharedField)
    (elsewhere : ∀ key, field.key ≠ key → field.other ≠ key → p.get? key = q.get? key)
    (same : field.value? p = field.value? q) : p.Agrees q where
  plain key member :=
    elsewhere key (plainKeys_separate field key member).1 (plainKeys_separate field key member).2
  shared another := by
    by_cases equal : another = field
    · rw [equal, same]
    · obtain ⟨first, firstOther, second, secondOther⟩ := fields_separate equal
      rw [SharedField.value?, SharedField.value?, elsewhere _ first second,
        elsewhere _ firstOther secondOther]

theorem str_ne {name key : String} (different : name ≠ key) : Value.str name ≠ .str key :=
  fun equal => different (Value.str.inj equal)

/-- Both spellings add their entry to the same mapping. -/
theorem agrees_of_renamed
    {before after : List (Value × Value)} {field : SharedField} {value : Value}
    (old : p.entries = before ++ (.str field.key, value) :: after)
    (new : q.entries = before ++ (.str field.other, value) :: after) :
    p.toPayload.Agrees q.toPayload := by
  have shared : ((before ++ after).map Prod.fst).Nodup := by
    have distinct := p.distinct
    rw [old, List.map_append, List.map_cons, List.nodup_middle, List.nodup_cons] at distinct
    rw [List.map_append]
    exact distinct.2
  let rest : Mapping := ⟨⟨before ++ after⟩, shared⟩
  have named : rest.Adds (.str field.key, value) p := ⟨before, after, rfl, old⟩
  have renamed : rest.Adds (.str field.other, value) q := ⟨before, after, rfl, new⟩
  apply agrees_of_field field
  · intro key first second
    rw [named.get?_of_ne (str_ne first), renamed.get?_of_ne (str_ne second)]
  · rw [SharedField.value?, SharedField.value?, named.get?_self.2, renamed.get?_self.2,
      named.get?_of_ne (str_ne (keys_separate field)),
      renamed.get?_of_ne (str_ne (keys_separate field).symm), named.get?_self.1,
      renamed.get?_self.1, Option.filter_none, Option.or_none, Option.none_or]

theorem agrees_of_shadowed
    {field : SharedField} {value : Value}
    (settled : (p.get? field.key).any field.settles = true)
    (added : p.Adds (.str field.other, value) q) : p.toPayload.Agrees q.toPayload := by
  have unchanged := added.get?_of_ne (str_ne (keys_separate field).symm)
  apply agrees_of_field field
  · intro key _ second
    exact (added.get?_of_ne (str_ne second)).symm
  · rw [SharedField.value?, SharedField.value?, unchanged]
    cases found : p.get? field.key with
    | none => simp [found] at settled
    | some given =>
        have settles : field.settles given = true := by simpa [found] using settled
        rw [Option.filter_some, if_pos settles, Option.some_or, Option.some_or]

/-- One change of spelling leaves all that a description is made of as it was. -/
theorem agrees (respelled : Respelling p q) : p.toPayload.Agrees q.toPayload := by
  cases respelled with
  | reordered perm => exact Payload.agrees_of_get? fun key _ => Mapping.get?_of_perm perm key
  | idle added idle => exact agrees_of_idle added idle
  | renamed field before old new => exact agrees_of_renamed old new
  | shadowed field settled added => exact agrees_of_shadowed settled added

/-- So do any number of changes, each made or taken back. -/
theorem agrees_of_eqvGen (respelled : Relation.EqvGen Respelling p q) :
    p.toPayload.Agrees q.toPayload := by
  induction respelled with
  | rel p q respelled => exact respelled.agrees
  | refl p => exact Payload.Agrees.refl p.toPayload
  | symm p q _ agrees => exact agrees.symm
  | trans p q r _ _ first second => exact first.trans second

end Respelling

namespace Map.Spec

/-- The description of a map does not depend on how its payload is spelled. -/
theorem ofPayload_eq_of_respelled
    (assets : String) {p q : Mapping} (respelled : Relation.EqvGen Respelling p q) :
    ofPayload assets p.toPayload = ofPayload assets q.toPayload :=
  ofPayload_congr assets (Respelling.agrees_of_eqvGen respelled)

/-- A key that means nothing, the other name of the longitude, more layers than are used, and
another order. -/
theorem ofPayload_eq_of_four_respellings :
    let p : Mapping := ⟨⟨[(.str "lng", .int 1), (.str "tileServer", .str "a|b")]⟩, by simp⟩
    let q : Mapping :=
      ⟨⟨[(.str "tiles", .str "c"), (.str "long", .int 1), (.int 3, .str "note"),
        (.str "tileServer", .str "a|b")]⟩, by simp⟩
    Relation.EqvGen Respelling p q ∧
      ofPayload "/z_assets/" p.toPayload = ofPayload "/z_assets/" q.toPayload := by
  intro p q
  let noted : Mapping :=
    ⟨⟨[(.str "lng", .int 1), (.int 3, .str "note"), (.str "tileServer", .str "a|b")]⟩, by simp⟩
  let renamed : Mapping :=
    ⟨⟨[(.str "long", .int 1), (.int 3, .str "note"), (.str "tileServer", .str "a|b")]⟩, by simp⟩
  let layered : Mapping :=
    ⟨⟨[(.str "long", .int 1), (.str "tiles", .str "c"), (.int 3, .str "note"),
      (.str "tileServer", .str "a|b")]⟩, by simp⟩
  have addsNote : Respelling p noted :=
    .idle ⟨[(.str "lng", .int 1)], _, rfl, rfl⟩ (.inl (by simp))
  have renames : Respelling noted renamed := .renamed .lng [] rfl rfl
  have addsLayers : Respelling renamed layered :=
    .shadowed .tileServer (by decide) ⟨[(.str "long", .int 1)], _, rfl, rfl⟩
  have reorders : Respelling layered q := .reordered (List.Perm.swap _ _ _)
  have respelled : Relation.EqvGen Respelling p q :=
    .trans _ _ _ (.rel _ _ addsNote) <| .trans _ _ _ (.rel _ _ renames) <|
      .trans _ _ _ (.rel _ _ addsLayers) (.rel _ _ reorders)
  exact ⟨respelled, ofPayload_eq_of_respelled "/z_assets/" respelled⟩

/-- So the texts of two map blocks have one description if their mappings are spelled differently
only. -/
theorem ofText_eq_of_respelled
    (assets : String) {text other : String}
    (respelled : Relation.EqvGen Respelling (.ofText text) (.ofText other)) :
    ofText assets text = ofText assets other :=
  ofPayload_congr assets (Respelling.agrees_of_eqvGen respelled)

/-- A longitude that does not fit its tag is not null, but the other name is asked all the same. -/
theorem misfit_settles_nothing :
    (∀ diagnose, Payload.parse diagnose "lng: !!int west\nlong: 5" =
        .ok ⟨[(.str "lng", .bad), (.str "long", .int 5)]⟩) ∧
      ¬∀ (assets : String) (p q : Mapping) (given value : Value),
        (.str "lng", given) ∈ p.entries → given ≠ .null → p.Adds (.str "long", value) q →
          ofPayload assets p.toPayload = ofPayload assets q.toPayload := by
  constructor
  · intro diagnose
    have scanned : Yaml.tokens? .v12 "lng: !!int west\nlong: 5" =
        some [.blockMappingStart, .key, .scalar .plain "lng".toList, .value,
          .tag "!!".toList "int".toList, .scalar .plain "west".toList, .key,
          .scalar .plain "long".toList, .value, .scalar .plain "5".toList, .blockEnd] := by
      decide +kernel
    have resolved : Yaml.properties? ⟨.v12, []⟩ none (['!', '!'], ['i', 'n', 't']) =
        some ⟨none, some ⟨Yaml.coreBase, "int"⟩⟩ := by
      decide
    have nodes : Yaml.documents? .v12 "lng: !!int west\nlong: 5" =
        some [.mapping .none
          [(.scalar .none .plain "lng", .scalar ⟨none, some ⟨Yaml.coreBase, "int"⟩⟩ .plain "west"),
            (.scalar .none .plain "long", .scalar .none .plain "5")]] := by
      rw [Yaml.documents?, scanned]
      apply Yaml.documentsFrom?_of_document? rfl
      simp [resolved, Yaml.document?, Yaml.Token.isDirective, Yaml.Node.ofTokens?,
        Yaml.Node.content?, Yaml.nextIs, Yaml.Node.blockEntries?, Yaml.Node.nodeUnless?,
        Yaml.Node.pairStops, Yaml.Node.blockValue?, Yaml.Reading.convert, Yaml.Reading.toPair,
        Yaml.Reading.after, Yaml.Rest.within, Yaml.Rest.tail]
    rw [Payload.parse, Value.documents?, nodes]
    rfl
  · intro unchanged
    let p : Mapping := ⟨⟨[(.str "lng", .bad)]⟩, by simp⟩
    let q : Mapping := ⟨⟨[(.str "lng", .bad), (.str "long", .int 5)]⟩, by simp⟩
    have added : p.Adds (.str "long", .int 5) q := ⟨[(.str "lng", .bad)], [], rfl, rfl⟩
    have same : ofPayload "" p.toPayload = ofPayload "" q.toPayload :=
      unchanged "" p q .bad (.int 5) List.mem_cons_self Value.noConfusion added
    have lost : (ofPayload "" p.toPayload).lng.isSome = false := by decide
    have found : (ofPayload "" q.toPayload).lng.isSome = true := by decide
    rw [same, found] at lost
    cases lost

end Map.Spec

end MapBlocks
