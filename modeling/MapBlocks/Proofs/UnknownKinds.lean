import MapBlocks.Proofs.ReadNodes
import MapBlocks.Proofs.SameValues

/-!
# Nodes of unknown kind

An object of a kind that is not described here is read as a node of unknown kind and
written with all its members.  Only its children and its position change: they are
written as what was read of them, or left out if they are null.
-/

namespace MapBlocks.Markdown.Node

open Json (Same lookup?)

/-- An item of a list of children is written as the node that was read from it. -/
def Rewritten (item written : Json) : Prop :=
  ∃ node, ofJson? item = some node ∧ written = node.toJson

def ChildrenRewritten (value written : Json) : Prop :=
  ∃ items others, value = .arr items ∧ written = .arr others ∧
    List.Forall₂ Rewritten items others

/-- A position is written in the object form of what was read of it. -/
def PositionRewritten (value written : Json) : Prop :=
  ∃ position, Position.ofJson? value = some position ∧ written = position.toJson

/-- What is written for a field that may be left out: nothing if it is null. -/
inductive FieldKept (rewritten : Json → Json → Prop) : Option Json → Option Json → Prop where
  | absent : FieldKept rewritten none none
  | null : FieldKept rewritten (some .null) none
  | given {value written : Json} :
      rewritten value written → FieldKept rewritten (some value) (some written)

/-- The members that are written are those that were read, with values that mean the
same, but for the children and the position. -/
structure MembersKept (members written : List (String × Json)) : Prop where
  distinct : (written.map Prod.fst).Nodup
  same : ∀ key, key ≠ "children" → key ≠ "position" →
    Option.Rel Same (lookup? key members) (lookup? key written)
  children : FieldKept ChildrenRewritten (lookup? "children" members) (lookup? "children" written)
  position : FieldKept PositionRewritten (lookup? "position" members) (lookup? "position" written)

/-- A tree of nodes of kinds that are not described here, in which no node has null for
its children or its position, and every position has the form in which it is written. -/
inductive UnknownTree : Json → Prop where
  | node {members : List (String × Json)} {kind : String} :
      (members.map Prod.fst).Nodup →
      lookup? "type" members = some (.str kind) → kind ∉ knownNames →
      (∀ value, lookup? "children" members = some value → ∃ items, value = .arr items) →
      (∀ items, lookup? "children" members = some (.arr items) →
        ∀ item ∈ items, UnknownTree item) →
      (∀ value, lookup? "position" members = some value →
        ∃ position, Position.ofJson? value = some position ∧ Same value position.toJson) →
      UnknownTree (.obj members)

theorem knownOfMembers?_of_undescribed
    {members : List (String × Json)} {kind : String}
    (tag : valuesOf "type" members = [.str kind]) (undescribed : kind ∉ knownNames)
    (lists : List (String × Option (List Node))) : knownOfMembers? members lists = none := by
  apply knownOfMembers?_of_unnamed tag
  · apply Option.eq_none_iff_forall_ne_some.mpr
    intro own names
    exact undescribed (Container.mem_knownNames_of_fieldNames? names)
  · apply Option.eq_none_iff_forall_ne_some.mpr
    intro own names
    exact undescribed (Leaf.mem_knownNames_of_fieldNames? names)

theorem forall₂_rewritten
    {items : List Json} {nodes : List Node} (read : listOfItems? items = some nodes) :
    List.Forall₂ Rewritten items (listToJson nodes) := by
  have related := listOfItems?_eq_some_iff.mp read
  clear read
  induction related with
  | nil => exact .nil
  | cons first _ induction => exact .cons ⟨_, first, rfl⟩ induction

section Field

variable {α : Type} {key : String} {members : List (String × Json)} {read : Json → Option α}
  (write : α → Json)

theorem fieldKept_of_optional?
    {rewritten : Json → Json → Prop} {field? : Option α}
    (field : Json.optional? members key read = some field?)
    (given : ∀ value a, read value = some a → rewritten value (write a)) :
    FieldKept rewritten (lookup? key members) (field?.map write) := by
  cases found : lookup? key members with
  | none =>
      rw [Json.optional?, found] at field
      cases field
      exact .absent
  | some value =>
      cases field? with
      | none =>
          cases value with
          | null => exact .null
          | _ => simp [Json.optional?, found] at field
      | some a =>
          obtain ⟨value, again, readValue⟩ := Json.exists_of_optional? field
          rw [found] at again
          cases again
          exact .given (given value a readValue)

theorem exists_optional?_of_same
    (null : read .null = none)
    (given : ∀ value, lookup? key members = some value →
      ∃ a, read value = some a ∧ Same value (write a)) :
    ∃ field?, Json.optional? members key read = some field? ∧
      Option.Rel Same (lookup? key members) (field?.map write) := by
  cases found : lookup? key members with
  | none => exact ⟨none, by rw [Json.optional?, found], .none⟩
  | some value =>
      obtain ⟨a, readValue, same⟩ := given value found
      exact ⟨some a, Json.optional?_of_read found null readValue, .some same⟩

end Field

section Object

variable {members : List (String × Json)} {kind : String}
  (distinct : (members.map Prod.fst).Nodup)
  (typed : lookup? "type" members = some (.str kind)) (undescribed : kind ∉ knownNames)

include distinct typed undescribed

theorem ofJson?_undescribed_iff {node : Node} :
    ofJson? (.obj members) = some node ↔
      ∃ children position,
        Json.optional? members "children" listOfJson? = some children ∧
        Json.optional? members "position" Position.ofJson? = some position ∧
        node = .unknown kind children position
          (Json.sortMembers (Json.canonicalMembers (others members))) := by
  have once := List.nodup_iff_count_le_one.mp distinct
  have tag : valuesOf "type" members = [.str kind] := by
    rw [valuesOf_of_count (once "type"), typed]
    rfl
  rw [ofJson?_obj_eq_some_iff, knownOfMembers?_of_undescribed tag undescribed,
    unknownOfMembers?_eq_some_iff]
  constructor
  · intro read
    rcases read with known | ⟨-, unknown⟩
    · cases known
    · obtain ⟨_, children, position, tagged, -, readChildren, -, readPosition, rfl⟩ := unknown
      rw [tag] at tagged
      cases tagged
      exact ⟨children, position, readChildren, readPosition, rfl⟩
  · intro read
    obtain ⟨children, position, readChildren, readPosition, rfl⟩ := read
    exact .inr ⟨rfl, kind, children, position, tag, once "children", readChildren,
      once "position", readPosition, rfl⟩

theorem membersKept_of_ofJson? {node : Node} (read : ofJson? (.obj members) = some node) :
    MembersKept members node.members := by
  have kept : node.Kept := kept_of_ofJson? read
  obtain ⟨children, position, readChildren, readPosition, rfl⟩ :=
    (ofJson?_undescribed_iff distinct typed undescribed).mp read
  refine ⟨kept.distinct_members, ?_, ?_, ?_⟩
  · intro key noChildren noPosition
    by_cases tag : key = "type"
    · rw [tag, typed, kept.lookup?_members List.mem_cons_self]
      exact .some (.str kind)
    · have other : key ∉ ["type", "children", "position"] := by
        simp [tag, noChildren, noPosition]
      rw [lookup?_members_of_other rfl other, extras,
        lookup?_kept other (List.nodup_iff_count_le_one.mp distinct key)]
      cases lookup? key members with
      | none => exact .none
      | some value => exact .some (Json.same_canonical value)
  · rw [kept.lookup?_children]
    apply fieldKept_of_optional? _ readChildren
    intro value nodes readList
    obtain ⟨items, rfl, readItems⟩ := listOfJson?_eq_some_iff.mp readList
    exact ⟨items, listToJson nodes, rfl, rfl, forall₂_rewritten readItems⟩
  · rw [kept.lookup?_position]
    apply fieldKept_of_optional? _ readPosition
    intro value found readValue
    exact ⟨found, readValue, rfl⟩

end Object

theorem listOfItems?_of_same
    {items : List Json}
    (read : ∀ item ∈ items, ∃ node, ofJson? item = some node ∧ Same item node.toJson) :
    ∃ nodes, listOfItems? items = some nodes ∧ List.Forall₂ Same items (listToJson nodes) := by
  induction items with
  | nil => exact ⟨[], rfl, .nil⟩
  | cons item rest induction =>
      rw [List.forall_mem_cons] at read
      obtain ⟨⟨node, readNode, same⟩, others⟩ := read
      obtain ⟨nodes, readRest, sameRest⟩ := induction others
      refine ⟨node :: nodes, ?_, .cons same sameRest⟩
      rw [listOfItems?_eq_some_iff] at readRest ⊢
      exact .cons readNode readRest

/-- A tree of kinds that are not described here is written as the value it was read from. -/
theorem same_of_unknownTree
    {json : Json} (tree : UnknownTree json) :
    ∃ node, ofJson? json = some node ∧ Same json node.toJson := by
  induction tree with
  | @node members kind distinct typed undescribed lists _ positions induction =>
      have childrenSame : ∀ value, lookup? "children" members = some value →
          ∃ nodes, listOfJson? value = some nodes ∧ Same value (.arr (listToJson nodes)) := by
        intro value found
        obtain ⟨items, rfl⟩ := lists value found
        obtain ⟨nodes, readItems, same⟩ := listOfItems?_of_same (induction items found)
        exact ⟨nodes, readItems, Json.same_arr_of_forall₂ same⟩
      obtain ⟨children, readChildren, sameChildren⟩ :=
        exists_optional?_of_same (fun nodes => .arr (listToJson nodes)) rfl childrenSame
      obtain ⟨position, readPosition, samePosition⟩ :=
        exists_optional?_of_same Position.toJson rfl positions
      let node := Node.unknown kind children position
        (Json.sortMembers (Json.canonicalMembers (others members)))
      have read : ofJson? (.obj members) = some node :=
        (ofJson?_undescribed_iff distinct typed undescribed).mpr
          ⟨children, position, readChildren, readPosition, rfl⟩
      have kept : node.Kept := kept_of_ofJson? read
      have written := membersKept_of_ofJson? distinct typed undescribed read
      refine ⟨node, read, ?_⟩
      rw [toJson_eq]
      apply Json.same_obj_of_distinct distinct written.distinct
      intro key
      by_cases isChildren : key = "children"
      · rw [isChildren, kept.lookup?_children]
        exact sameChildren
      · by_cases isPosition : key = "position"
        · rw [isPosition, kept.lookup?_position]
          exact samePosition
        · exact written.same key isChildren isPosition

/-- An object of a kind that is not described here is read as a node of that kind and
written with the same members, but for its children and its position; a tree of such
objects is read, and written as the same value. -/
theorem unknown_kinds_are_kept :
    (∀ members kind node, (members.map Prod.fst).Nodup →
      lookup? "type" members = some (.str kind) → kind ∉ knownNames →
      ofJson? (.obj members) = some node →
      node.isKnown = false ∧ node.typeName = kind ∧
        ∃ written, node.toJson = .obj written ∧ MembersKept members written) ∧
    ∀ json, UnknownTree json → ∃ node, ofJson? json = some node ∧ Same json node.toJson := by
  constructor
  · intro members kind node distinct typed undescribed read
    have written := membersKept_of_ofJson? distinct typed undescribed read
    obtain ⟨_, _, _, _, rfl⟩ := (ofJson?_undescribed_iff distinct typed undescribed).mp read
    exact ⟨rfl, rfl, _, toJson_eq _, written⟩
  · intro json tree
    exact same_of_unknownTree tree

/-- The position of a footnote changes from an array to an object, and the keys of its
data come in order; a formula in a note keeps its null. -/
theorem unknown_kinds_are_kept_in_note :
    let data : Json := .obj [("b", .num (.int 1)), ("a", .bool true)]
    let point (line column : Int) : Json := .arr [.num (.int line), .num (.int column)]
    let footnote : List (String × Json) :=
      [("type", .str "footnote"), ("data", data),
        ("children", .arr [.obj [("type", .str "text"), ("value", .str "a")]]),
        ("position", .arr [point 1 2, point 3 4])]
    let node := Node.unknown "footnote" (some [.text "a"]) (some ⟨⟨1, 2, none⟩, ⟨3, 4, none⟩⟩)
      [("data", data.canonical)]
    let formula : Json := .obj [("meta", .null), ("type", .str "math")]
    let note : Json := .obj [("children", .arr [formula]), ("type", .str "note")]
    (ofJson? (.obj footnote) = some node ∧
      ∃ written, node.toJson = .obj written ∧ MembersKept footnote written) ∧
    UnknownTree note ∧ ∃ node, ofJson? note = some node ∧ Same note node.toJson := by
  intro data point footnote node formula note
  have distinct : (footnote.map Prod.fst).Nodup := by simp [footnote]
  have undescribed : "footnote" ∉ knownNames := by simp [knownNames]
  have read : ofJson? (.obj footnote) = some node := by
    apply (ofJson?_undescribed_iff distinct rfl undescribed).mpr
    exact ⟨_, _, rfl, rfl, rfl⟩
  have tree : UnknownTree note := by
    have leaf : UnknownTree formula := by
      refine .node (by simp) rfl (by simp [knownNames]) ?_ ?_ ?_
      · intro _ held
        cases held
      · intro _ held
        cases held
      · intro _ held
        cases held
    refine .node (by simp) rfl (by simp [knownNames]) ?_ ?_ ?_
    · intro _ held
      cases held
      exact ⟨_, rfl⟩
    · intro _ held item listed
      cases held
      rw [List.mem_singleton.mp listed]
      exact leaf
    · intro _ held
      cases held
  have both := unknown_kinds_are_kept
  exact ⟨⟨read, (both.1 footnote "footnote" node distinct rfl undescribed read).2.2⟩, tree,
    both.2 note tree⟩

end MapBlocks.Markdown.Node
