import Mathlib
import MapBlocks.Map.Payload
import MapBlocks.Proofs.DistinctKeys

/-!
# Values that are read

A property of scalars that passes from the parts of a value to the whole holds for all
values of a document: what an alias repeats was read before it, and inside of what it
repeats it is bad.
-/

namespace MapBlocks

namespace Yaml

open Value in
/-- A property that a value has if its parts have it, and that scalars have. -/
structure Hereditary (property : Value → Prop) : Prop where
  bad : property .bad
  scalar : ∀ properties style text, property (ofScalar properties style text)
  seq : ∀ {items : List Value}, (∀ item ∈ items, property item) → property (.seq items)
  map : ∀ {entries : List (Value × Value)}, (∀ entry ∈ entries, property entry.1) →
    (∀ entry ∈ entries, property entry.2) → property (.map entries)

/-- What is known at an anchor has a property. -/
def Anchors.Have (property : Value → Prop) (anchors : Anchors) : Prop :=
  ∀ entry ∈ anchors.values, property entry.2

structure Pairing.Have (property : Value → Prop) (pairing : Pairing) : Prop where
  pending : ∀ key ∈ pairing.pending, property key
  keys : ∀ entry ∈ pairing.entries, property entry.1
  values : ∀ entry ∈ pairing.entries, property entry.2

variable {property : Value → Prop}

/-! ### Anchors and pairs -/

namespace Anchors.Have

theorem empty : Anchors.empty.Have property := List.forall_mem_nil _

variable {anchors : Anchors}

theorem enter (known : anchors.Have property) (name? : Option String) :
    (anchors.enter name?).1.Have property := by
  cases name? with
  | none => exact known
  | some name => exact known

theorem complete
    (known : anchors.Have property) (number? : Option ℕ) {value : Value} (holds : property value) :
    (anchors.complete number? value).Have property := by
  cases number? with
  | none => exact known
  | some number => exact List.forall_mem_cons.mpr ⟨holds, known⟩

theorem value?
    (known : anchors.Have property) (bad : property .bad) {name : String} {value : Value}
    (found : anchors.value? name = some value) : property value := by
  obtain ⟨number, -, rfl⟩ := Option.map_eq_some_iff.mp found
  cases looked : anchors.values.lookup number with
  | none => exact bad
  | some value =>
      obtain ⟨before, after, listed, -⟩ := List.lookup_eq_some_iff.mp looked
      apply known (number, value)
      rw [listed]
      exact List.mem_append_right _ List.mem_cons_self

end Anchors.Have

namespace Pairing.Have

theorem empty : Pairing.Have property ⟨none, []⟩ := ⟨nofun, nofun, nofun⟩

theorem add?
    {pairing after : Pairing} (known : pairing.Have property) {value : Value}
    (holds : property value) (added : pairing.add? value = some after) : after.Have property := by
  obtain ⟨pending, entries⟩ := pairing
  cases pending with
  | none =>
      have same : after.entries = entries ∧ ∀ key ∈ after.pending, key = value := by
        cases value <;> simp [Pairing.add?] at added <;> simp [← added]
      obtain ⟨kept, only⟩ := same
      refine ⟨?_, kept ▸ known.keys, kept ▸ known.values⟩
      intro key pending
      rw [only key pending]
      exact holds
  | some key =>
      simp only [Pairing.add?] at added
      split at added
      · cases added
      · cases added
        constructor
        · intro key pending
          cases pending
        · exact List.forall_mem_cons.mpr ⟨known.pending key rfl, known.keys⟩
        · exact List.forall_mem_cons.mpr ⟨holds, known.values⟩

end Pairing.Have

/-! ### Documents -/

namespace Hereditary

open Value

mutual

/-- A hereditary property passes from the values at anchors to what is read. -/
theorem of_ofNode? (hereditary : Hereditary property) :
    (node : Node) → {anchors after : Anchors} → {value : Value} → anchors.Have property →
    ofNode? anchors node = some (value, after) → property value ∧ after.Have property
  | .alias name, anchors, after, value, known, read => by
      rw [ofNode?] at read
      obtain ⟨found, repeated, same⟩ := Option.map_eq_some_iff.mp read
      cases same
      exact ⟨known.value? hereditary.bad repeated, known⟩
  | .scalar properties style text, anchors, after, value, known, read => by
      have scalar := hereditary.scalar properties style text
      rw [ofNode?] at read
      cases read
      exact ⟨scalar, (known.enter properties.anchor).complete _ scalar⟩
  | .sequence properties items, anchors, after, value, known, read => by
      rw [ofNode?] at read
      obtain ⟨⟨values, last⟩, itemsRead, same⟩ := Option.map_eq_some_iff.mp read
      cases same
      obtain ⟨each, lastKnown⟩ := of_ofItems? hereditary items (known.enter _) itemsRead
      exact ⟨hereditary.seq each, lastKnown.complete _ (hereditary.seq each)⟩
  | .mapping properties nodes, anchors, after, value, known, read => by
      rw [ofNode?] at read
      obtain ⟨⟨pairs, last⟩, pairsRead, same⟩ := Option.map_eq_some_iff.mp read
      cases same
      obtain ⟨keys, values, lastKnown⟩ :=
        of_ofEntries? hereditary nodes (known.enter _) Pairing.Have.empty pairsRead
      exact ⟨hereditary.map keys values, lastKnown.complete _ (hereditary.map keys values)⟩

theorem of_ofItems? (hereditary : Hereditary property) :
    (items : List Node) → {anchors after : Anchors} → {values : List Value} →
    anchors.Have property → ofItems? anchors items = some (values, after) →
    (∀ value ∈ values, property value) ∧ after.Have property
  | [], anchors, after, values, known, read => by
      rw [ofItems?] at read
      cases read
      exact ⟨List.forall_mem_nil _, known⟩
  | item :: rest, anchors, after, values, known, read => by
      rw [ofItems?] at read
      simp only [Option.bind_eq_bind, Option.bind_eq_some_iff] at read
      obtain ⟨⟨value, next⟩, itemRead, ⟨others, last⟩, restRead, same⟩ := read
      cases same
      obtain ⟨first, nextKnown⟩ := of_ofNode? hereditary item known itemRead
      obtain ⟨each, lastKnown⟩ := of_ofItems? hereditary rest nextKnown restRead
      exact ⟨List.forall_mem_cons.mpr ⟨first, each⟩, lastKnown⟩

theorem of_ofEntries? (hereditary : Hereditary property) :
    (nodes : List (Node × Node)) → {anchors after : Anchors} → {pairing : Pairing} →
    {entries : List (Value × Value)} → anchors.Have property → pairing.Have property →
    ofEntries? anchors pairing nodes = some (entries, after) →
    (∀ entry ∈ entries, property entry.1) ∧ (∀ entry ∈ entries, property entry.2) ∧
      after.Have property
  | [], anchors, after, pairing, entries, known, paired, read => by
      rw [ofEntries?] at read
      cases read
      simp only [List.mem_reverse]
      exact ⟨paired.keys, paired.values, known⟩
  | (key, item) :: rest, anchors, after, pairing, entries, known, paired, read => by
      rw [ofEntries?] at read
      simp only [Option.bind_eq_bind, Option.bind_eq_some_iff] at read
      obtain ⟨⟨name, next⟩, keyRead, keyed, keyAdded, ⟨value, last⟩, itemRead, full, itemAdded,
        restRead⟩ := read
      obtain ⟨keyHolds, nextKnown⟩ := of_ofNode? hereditary key known keyRead
      obtain ⟨itemHolds, lastKnown⟩ := of_ofNode? hereditary item nextKnown itemRead
      exact of_ofEntries? hereditary rest lastKnown
        ((paired.add? keyHolds keyAdded).add? itemHolds itemAdded) restRead

end

end Hereditary

end Yaml

namespace Payload

/-- A hereditary property holds for each payload that a text gives. -/
theorem of_hereditary
    {property : Yaml.Value → Prop} (hereditary : Yaml.Hereditary property) (text : String) :
    property (.map (parseOrEmpty text).entries) := by
  rcases parseOrEmpty_eq text with keyless | ⟨node, value, after, found, given⟩
  · rw [keyless]
    exact hereditary.map nofun nofun
  · rw [given]
    have holds := (hereditary.of_ofNode? node .empty found).1
    cases value with
    | map entries => exact holds
    | null | bad | bool | int | real | str | seq => exact hereditary.map nofun nofun

end Payload

end MapBlocks
