import MapBlocks.Map.Spec
import MapBlocks.Proofs.ReadValues
import MapBlocks.Proofs.RealSpellings

/-!
# Values that are unset

Null, `false`, zero, no number and the empty text leave a flag unset, as does what has
no value, and all other values set it, except for a real number that is spelled as
infinity.  The template of a record counts in the same way.
-/

namespace MapBlocks

namespace Yaml.Value

open Decimal

/-- Values that stand for nothing, for `false`, for zero or for no number. -/
inductive IsUnset : Value → Prop where
  | null : IsUnset .null
  | bad : IsUnset .bad
  | false : IsUnset (.bool false)
  | zero : IsUnset (.int 0)
  | realZero {text : String} {negative : Bool} {exponent : ℤ}
      (stands : StandsFor text (.finite negative 0 exponent)) : IsUnset (.real text)
  | nan {text : String} (stands : StandsFor text .nan) : IsUnset (.real text)
  | empty : IsUnset (.str "")

/-- A real number that is spelled with the word for infinity. -/
inductive IsInfinity : Value → Prop where
  | intro {word : String} (known : word ∈ infinityWords) : IsInfinity (.real word)

/-- The real numbers in a value, at any depth, are spelled as such. -/
inductive Spelled : Value → Prop where
  | null : Spelled .null
  | bad : Spelled .bad
  | bool (value : Bool) : Spelled (.bool value)
  | int (value : ℤ) : Spelled (.int value)
  | real {text : String} (spelled : isReal text = true) : Spelled (.real text)
  | str (text : String) : Spelled (.str text)
  | seq {items : List Value} (each : ∀ item ∈ items, Spelled item) : Spelled (.seq items)
  | map {entries : List (Value × Value)} (keys : ∀ entry ∈ entries, Spelled entry.1)
      (values : ∀ entry ∈ entries, Spelled entry.2) : Spelled (.map entries)

/-! ### Reading -/

theorem spelled_ofPlain (text : String) : (ofPlain text).Spelled := by
  unfold ofPlain
  split
  · exact .int _
  · repeat' split
    all_goals first | exact .real ‹_› | constructor

theorem spelled_ofCore (suffix text : String) : (ofCore suffix text).Spelled := by
  unfold ofCore
  repeat' split
  all_goals first | exact .real ‹_› | constructor

theorem spelled_ofScalar (properties : Properties) (style : Style) (text : String) :
    (ofScalar properties style text).Spelled := by
  unfold ofScalar
  split
  · exact .str text
  · split
    · exact spelled_ofPlain text
    · split
      · exact spelled_ofCore _ text
      · exact .str text

theorem hereditary_spelled : Hereditary Spelled where
  bad := .bad
  scalar := spelled_ofScalar
  seq := .seq
  map := .map

/-! ### Truth -/

variable {value : Value}

theorem isTruthy_real_iff {text : String} (real : isReal text = true) :
    (Value.real text).isTruthy = true ↔
      ¬(Value.real text).IsUnset ∧ ¬(Value.real text).IsInfinity := by
  rw [isTruthy, isNonzeroReal_iff real]
  constructor
  · rintro ⟨finite, number, nonzero⟩
    constructor
    · intro unset
      cases unset with
      | realZero stands => exact nonzero _ _ stands
      | nan stands => exact number stands
    · rintro ⟨known⟩
      exact finite known
  · rintro ⟨set, finite⟩
    exact ⟨fun known => finite ⟨known⟩, fun stands => set (.nan stands),
      fun _ _ stands => set (.realZero stands)⟩

/-- A value counts as true unless it is unset or spelled as infinity. -/
theorem isTruthy_iff (spelled : value.Spelled) :
    value.isTruthy = true ↔ ¬value.IsUnset ∧ ¬value.IsInfinity := by
  cases spelled with
  | real spelled => exact isTruthy_real_iff spelled
  | null => exact iff_of_false Bool.false_ne_true fun counts => counts.1 .null
  | bad => exact iff_of_false Bool.false_ne_true fun counts => counts.1 .bad
  | bool value =>
      cases value with
      | true => exact iff_of_true rfl ⟨nofun, nofun⟩
      | false => exact iff_of_false Bool.false_ne_true fun counts => counts.1 .false
  | int value =>
      rw [isTruthy, decide_eq_true_eq]
      constructor
      · intro nonzero
        refine ⟨?_, nofun⟩
        rintro ⟨⟩
        exact nonzero rfl
      · rintro ⟨set, -⟩ rfl
        exact set .zero
  | str text =>
      rw [isTruthy, decide_eq_true_eq]
      constructor
      · intro nonempty
        refine ⟨?_, nofun⟩
        rintro ⟨⟩
        exact nonempty rfl
      · rintro ⟨set, -⟩ rfl
        exact set .empty
  | seq => exact iff_of_true rfl ⟨nofun, nofun⟩
  | map => exact iff_of_true rfl ⟨nofun, nofun⟩

/-- By its meaning, infinity is not unset. -/
theorem not_isUnset_of_isInfinity (infinite : value.IsInfinity) : ¬value.IsUnset := by
  obtain @⟨word, known⟩ := infinite
  intro unset
  cases unset with
  | realZero stands =>
      cases stands with
      | numeral spelled => exact not_spells_of_word (List.mem_append_left _ known) spelled
  | nan stands =>
      cases stands with
      | nan other =>
          have apart : ∀ word ∈ infinityWords, word ∉ nanWords := by decide
          exact apart word known other
      | numeral spelled => exact not_spells_of_word (List.mem_append_left _ known) spelled

theorem isBlank_of_isTruthy (counts : value.isTruthy = true) : value.isBlank = false := by
  cases value with
  | null => cases counts
  | bad => cases counts
  | bool | int | real | str | seq | map => rfl

end Yaml.Value

namespace Payload

open Yaml (Value)

/-- A key has a value that is neither unset nor spelled as infinity. -/
def Sets (payload : Payload) (key : String) : Prop :=
  ∃ value, (.str key, value) ∈ payload.entries ∧ ¬value.IsUnset ∧ ¬value.IsInfinity

variable {payload : Payload} {key : String}

theorem any_isTruthy_get?_iff
    (distinct : (payload.entries.map Prod.fst).Nodup)
    (spelled : ∀ entry ∈ payload.entries, entry.2.Spelled) :
    (payload.get? key).any Value.isTruthy = true ↔ payload.Sets key := by
  simp only [get?, Value.field?, Option.any_eq_true, Option.filter_eq_some_iff,
    Value.valueOf?_eq_some_iff distinct]
  constructor
  · rintro ⟨value, ⟨member, -⟩, counts⟩
    exact ⟨value, member, (Value.isTruthy_iff (spelled _ member)).mp counts⟩
  · rintro ⟨value, member, set⟩
    have counts := (Value.isTruthy_iff (spelled _ member)).mpr set
    refine ⟨value, ⟨member, ?_⟩, counts⟩
    rw [Value.isBlank_of_isTruthy counts]
    rfl

theorem spelled_parseOrEmpty (text : String) :
    ∀ entry ∈ (parseOrEmpty text).entries, entry.2.Spelled := by
  have spelled := of_hereditary Value.hereditary_spelled text
  cases spelled with
  | map keys values => exact values

end Payload

namespace Map

open Yaml (Value)

/-- A record is a layer if its template is a scalar that counts as true. -/
theorem TileLayer.exists_ofValue?
    {entries : List (Value × Value)} {value : Value} {template : String}
    (found : Value.valueOf? "template" entries = some value) (counts : value.isTruthy = true)
    (shown : value.scalarText? = some template) :
    ∃ layer, ofValue? (.map entries) = some layer ∧ layer.template = template := by
  have present : Value.field? (.map entries) "template" = some value := by
    rw [Value.field?, found, Option.filter_some, Value.isBlank_of_isTruthy counts]
    rfl
  have kept : (Value.field? (.map entries) "template").filter Value.isTruthy = some value := by
    rw [present, Option.filter_some, counts]
    rfl
  have record : ofValue? (.map entries) = ofRecord? (.map entries) := rfl
  rw [record, ofRecord?, kept]
  simp only [Option.bind_eq_bind, Option.bind_some, shown]
  exact ⟨_, rfl, rfl⟩

namespace Spec

/-- The flags of a description are set by the values of their keys, and no record loses a template
that is set. -/
theorem flags_iff_sets (assets text : String) :
    ((ofText assets text).recenter = true ↔ (Payload.parseOrEmpty text).Sets "recenter") ∧
    ((ofText assets text).darkMode = true ↔ (Payload.parseOrEmpty text).Sets "darkMode") ∧
    ∀ {entries : List (Value × Value)} {value : Value} {template : String},
      Value.valueOf? "template" entries = some value → value.scalarText? = some template →
      value.Spelled → ¬value.IsUnset → ¬value.IsInfinity →
      ∃ layer, TileLayer.ofValue? (.map entries) = some layer ∧ layer.template = template := by
  have distinct := Payload.nodup_parseOrEmpty text
  have spelled := Payload.spelled_parseOrEmpty text
  refine ⟨Payload.any_isTruthy_get?_iff distinct spelled,
    Payload.any_isTruthy_get?_iff distinct spelled, ?_⟩
  intro entries value template found shown spelled set finite
  exact TileLayer.exists_ofValue? found ((Value.isTruthy_iff spelled).mpr ⟨set, finite⟩) shown

/-- A record whose template is a number beyond the range of doubles. -/
theorem flags_iff_sets_of_large_template :
    let value : Value := .real "1e400"
    let entries : List (Value × Value) := [(.str "name", .int 7), (.str "template", value)]
    value.Spelled ∧ ¬value.IsUnset ∧ ¬value.IsInfinity ∧
      ∃ layer, TileLayer.ofValue? (.map entries) = some layer ∧ layer.template = "1e400" := by
  intro value entries
  have spelled : value.Spelled := .real (by decide)
  have counts : value.isTruthy = true := by decide
  obtain ⟨set, finite⟩ := (Value.isTruthy_iff spelled).mp counts
  exact ⟨spelled, set, finite,
    (flags_iff_sets "/z_assets/" "").2.2 rfl rfl spelled set finite⟩

/-- Infinity is neither zero nor missing, but it sets no flag, and a record with it for a template
is dropped. -/
theorem infinity_sets_nothing :
    ¬(Value.real ".inf").IsUnset ∧
      (ofPayload "/z_assets/" ⟨[(.str "recenter", .real ".inf")]⟩).recenter = false ∧
      TileLayer.ofValue? (.map [(.str "template", .real ".inf")]) = none := by
  have known : ".inf" ∈ Value.infinityWords := List.mem_cons_self
  refine ⟨Value.not_isUnset_of_isInfinity ⟨known⟩, by decide, by decide⟩

end Spec

end Map

end MapBlocks
