import MapBlocks.Map.Payload
import Mathlib.Data.List.Nodup

/-!
# Keys of mappings

A mapping that is read has each key once, so that the order of its entries does not
matter: what is found under a key is the value that stands with it.
-/

namespace MapBlocks

open Yaml (Value)

namespace Yaml.Value

mutual

theorem same_self (value : Value) : same value value = true := by
  cases value with
  | null | bad => rfl
  | bool | int | real | str => simp [same]
  | seq items => rw [same, sameItems_self items]
  | map entries => rw [same, sameEntries_self entries]

theorem sameItems_self (items : List Value) : sameItems items items = true := by
  cases items with
  | nil => rfl
  | cons item rest => rw [sameItems, same_self item, sameItems_self rest, Bool.and_true]

theorem sameEntries_self (entries : List (Value × Value)) :
    sameEntries entries entries = true := by
  cases entries with
  | nil => rfl
  | cons entry rest =>
      obtain ⟨key, value⟩ := entry
      rw [sameEntries, same_self key, same_self value, sameEntries_self rest, Bool.and_true,
        Bool.and_true]

end

variable {key : String} {entries : List (Value × Value)}

@[simp]
theorem valueOf?_cons_self (value : Value) (rest : List (Value × Value)) :
    valueOf? key ((.str key, value) :: rest) = some value := by
  rw [valueOf?, if_pos rfl]

theorem valueOf?_cons_of_ne
    {entry : Value × Value} (other : entry.1 ≠ .str key) (rest : List (Value × Value)) :
    valueOf? key (entry :: rest) = valueOf? key rest := by
  obtain ⟨name, value⟩ := entry
  cases name with
  | str name =>
      have different : name ≠ key := fun equal => other (congrArg Value.str equal)
      rw [valueOf?, if_neg different]
  | null | bad | bool | int | real | seq | map => rfl

/-- What is found under a key that stands once is the value that stands with it. -/
theorem valueOf?_eq_some_iff
    (distinct : (entries.map Prod.fst).Nodup) {value : Value} :
    valueOf? key entries = some value ↔ (.str key, value) ∈ entries := by
  induction entries with
  | nil => simp [valueOf?]
  | cons entry rest induction =>
      rw [List.map_cons, List.nodup_cons] at distinct
      obtain ⟨name, found⟩ := entry
      by_cases named : name = .str key
      · subst named
        have alone : (.str key, value) ∉ rest := fun member =>
          distinct.1 (List.mem_map.mpr ⟨_, member, rfl⟩)
        simp [alone, eq_comm]
      · rw [valueOf?_cons_of_ne named, induction distinct.2]
        simp [Ne.symm named]

/-! ### Mappings that are read -/

theorem nodup_of_add?
    {pairing after : Pairing} {value : Value} (added : pairing.add? value = some after)
    (distinct : (pairing.entries.map Prod.fst).Nodup) :
    (after.entries.map Prod.fst).Nodup := by
  cases pending : pairing.pending with
  | none =>
      have same : after.entries = pairing.entries := by
        cases value <;> simp [Pairing.add?, pending] at added <;> rw [← added]
      rwa [same]
  | some key =>
      simp only [Pairing.add?, pending] at added
      split at added
      · cases added
      · rename_i unused
        cases added
        rw [List.map_cons, List.nodup_cons]
        refine ⟨?_, distinct⟩
        intro repeated
        obtain ⟨entry, member, equal⟩ := List.mem_map.mp repeated
        apply unused
        rw [List.any_eq_true]
        exact ⟨entry, member, by rw [equal]; exact same_self key⟩

theorem nodup_of_ofEntries?
    {anchors after : Anchors} {pairing : Pairing}
    {nodes : List (Node × Node)} {entries : List (Value × Value)}
    (read : ofEntries? anchors pairing nodes = some (entries, after))
    (distinct : (pairing.entries.map Prod.fst).Nodup) :
    (entries.map Prod.fst).Nodup := by
  induction nodes generalizing anchors pairing with
  | nil =>
      cases read
      rwa [List.map_reverse, List.nodup_reverse]
  | cons node rest induction =>
      simp only [ofEntries?, Option.bind_eq_bind, Option.bind_eq_some_iff] at read
      obtain ⟨name, -, keyed, keyAdded, value, -, paired, valueAdded, remaining⟩ := read
      exact induction remaining (nodup_of_add? valueAdded (nodup_of_add? keyAdded distinct))

theorem ofPlain_ne_map (text : String) (entries : List (Value × Value)) :
    ofPlain text ≠ .map entries := by
  unfold ofPlain
  repeat' split
  all_goals exact Value.noConfusion

theorem ofScalar_ne_map
    (properties : Properties) (style : Style) (text : String)
    (entries : List (Value × Value)) : ofScalar properties style text ≠ .map entries := by
  unfold ofScalar
  split
  · exact Value.noConfusion
  · split
    · exact ofPlain_ne_map text entries
    · split
      · unfold ofCore
        repeat' split
        all_goals exact Value.noConfusion
      · exact Value.noConfusion

/-- A document that is a mapping has each key once. -/
theorem nodup_of_ofNode?
    {node : Node} {entries : List (Value × Value)} {after : Anchors}
    (read : ofNode? .empty node = some (.map entries, after)) :
    (entries.map Prod.fst).Nodup := by
  match node, read with
  | .alias name, read =>
      simp [ofNode?, Anchors.value?, Anchors.empty] at read
  | .scalar properties style text, read =>
      simp only [ofNode?, Option.some.injEq, Prod.mk.injEq] at read
      exact absurd read.1 (ofScalar_ne_map properties style text entries)
  | .sequence properties items, read =>
      simp [ofNode?, Option.map_eq_some_iff] at read
  | .mapping properties nodes, read =>
      rw [ofNode?] at read
      obtain ⟨⟨pairs, last⟩, paired, equal⟩ := Option.map_eq_some_iff.mp read
      cases equal
      exact nodup_of_ofEntries? paired List.nodup_nil

theorem exists_node_of_mem
    {nodes : List Node} {values : List Value} {value : Value}
    (read : (nodes.mapM fun node => (ofNode? .empty node).map Prod.fst) = some values)
    (member : value ∈ values) :
    ∃ node after, ofNode? .empty node = some (value, after) := by
  induction nodes generalizing values with
  | nil =>
      cases read
      cases member
  | cons node rest induction =>
      simp only [List.mapM_cons, Option.bind_eq_bind, Option.bind_eq_some_iff,
        Option.pure_def, Option.some.injEq] at read
      obtain ⟨first, converted, others, remaining, rfl⟩ := read
      rcases List.mem_cons.mp member with rfl | later
      · obtain ⟨⟨_, after⟩, found, rfl⟩ := Option.map_eq_some_iff.mp converted
        exact ⟨node, after, found⟩
      · exact induction remaining later

end Yaml.Value

namespace Payload

theorem nodup_ofValue
    {node : Yaml.Node} {value : Value} {after : Yaml.Anchors}
    (read : Value.ofNode? .empty node = some (value, after)) :
    ((ofValue value).entries.map Prod.fst).Nodup := by
  cases value with
  | map entries => exact Value.nodup_of_ofNode? read
  | null | bad | bool | int | real | str | seq => exact List.nodup_nil

/-- A text that is no payload has no keys; any other is the payload of one node. -/
theorem parseOrEmpty_eq (text : String) :
    parseOrEmpty text = .empty ∨ ∃ node value after,
      Value.ofNode? .empty node = some (value, after) ∧ parseOrEmpty text = ofValue value := by
  unfold parseOrEmpty parse
  cases read : Value.documents? text with
  | none => exact .inl rfl
  | some values =>
      match values, read with
      | [], _ => exact .inl rfl
      | _ :: _ :: _, _ => exact .inl rfl
      | [value], read =>
          obtain ⟨nodes, -, converted⟩ := Option.bind_eq_some_iff.mp read
          obtain ⟨node, after, found⟩ := Value.exists_node_of_mem converted List.mem_cons_self
          exact .inr ⟨node, value, after, found, rfl⟩

/-- Each text of a map block has each key once. -/
theorem nodup_parseOrEmpty (text : String) :
    ((parseOrEmpty text).entries.map Prod.fst).Nodup := by
  rcases parseOrEmpty_eq text with keyless | ⟨node, value, after, found, given⟩
  · rw [keyless]
    exact List.nodup_nil
  · rw [given]
    exact nodup_ofValue found

end Payload

/-- A payload in which each key stands once. -/
structure Mapping extends Payload where
  distinct : (entries.map Prod.fst).Nodup

namespace Mapping

/-- The payload that a text gives. -/
def ofText (text : String) : Mapping :=
  ⟨Payload.parseOrEmpty text, Payload.nodup_parseOrEmpty text⟩

/-- One mapping is another one with an entry added to it, in any place. -/
def Adds (shorter : Mapping) (entry : Value × Value) (longer : Mapping) : Prop :=
  ∃ before after,
    shorter.entries = before ++ after ∧ longer.entries = before ++ entry :: after

variable {p q : Mapping} {entry : Value × Value} {key : String}

/-- Lookups do not depend on the order of the entries. -/
theorem get?_of_perm (perm : p.entries.Perm q.entries) (key : String) :
    p.get? key = q.get? key := by
  have found : Value.valueOf? key p.entries = Value.valueOf? key q.entries := by
    ext value
    rw [Value.valueOf?_eq_some_iff p.distinct, Value.valueOf?_eq_some_iff q.distinct, perm.mem_iff]
  rw [Payload.get?, Payload.get?, Value.field?, Value.field?, found]

namespace Adds

/-- What is added may as well stand first. -/
theorem get?_eq (added : p.Adds entry q) (key : String) :
    q.get? key = (Value.valueOf? key (entry :: p.entries)).filter (!·.isBlank) := by
  obtain ⟨before, after, shorter, longer⟩ := added
  have perm : q.entries.Perm (entry :: p.entries) := by
    rw [shorter, longer]
    exact List.perm_middle
  have distinct : ((entry :: p.entries).map Prod.fst).Nodup :=
    (perm.map Prod.fst).nodup_iff.mp q.distinct
  exact get?_of_perm (q := ⟨⟨entry :: p.entries⟩, distinct⟩) perm key

theorem get?_of_ne (added : p.Adds entry q) (other : entry.1 ≠ .str key) :
    q.get? key = p.get? key := by
  rw [added.get?_eq, Value.valueOf?_cons_of_ne other]
  rfl

/-- What is added has a key of its own. -/
theorem get?_self {value : Value} (added : p.Adds (.str key, value) q) :
    p.get? key = none ∧ q.get? key = (some value).filter (!·.isBlank) := by
  constructor
  · obtain ⟨before, after, shorter, longer⟩ := added
    have fresh : .str key ∉ (before ++ after).map Prod.fst := by
      have distinct := q.distinct
      rw [longer, List.map_append, List.map_cons, List.nodup_middle, List.nodup_cons] at distinct
      rw [List.map_append]
      exact distinct.1
    have missing : Value.valueOf? key p.entries = none := by
      rw [Option.eq_none_iff_forall_ne_some]
      intro found present
      rw [Value.valueOf?_eq_some_iff p.distinct, shorter] at present
      exact fresh (List.mem_map.mpr ⟨_, present, rfl⟩)
    rw [Payload.get?, Value.field?, missing, Option.filter_none]
  · rw [added.get?_eq, Value.valueOf?_cons_self]

end Adds

end Mapping

end MapBlocks
