import MapBlocks.Proofs.WrittenNodes

/-!
# Read nodes

Each node of a tree that was read was itself read from a value at some place of what
was read.  So the nodes of unknown kind in it are as they are kept, and their fields
fit no known kind if all places hold plain objects.
-/

namespace MapBlocks.Markdown.Node

open Transform

/-- A value has a list where the list of the children of a node may stand. -/
inductive ChildList (items : List Json) : Json → Prop where
  | member {members : List (String × Json)} :
      ("children", .arr items) ∈ members → ChildList items (.obj members)
  | item {outer : List Json} : .arr items ∈ outer → ChildList items (.arr outer)

/-- A value stands where a node is read: as the whole value, or below it at any depth in
a list from which the children of a node are read.  A list in a leaf is no such list. -/
inductive NodePlace (place : Json) : Json → Prop where
  | whole : NodePlace place place
  | deeper {json : Json} {node : Node} {children : List Node} {items : List Json} {item : Json} :
      ofJson? json = some node → node.children? = some children →
      ChildList items json → listOfItems? items = some children →
      item ∈ items → NodePlace place item → NodePlace place json

theorem NodePlace.trans {inner place json : Json} (first : NodePlace inner place)
    (second : NodePlace place json) : NodePlace inner json := by
  induction second with
  | whole => exact first
  | deeper read held list readItems listed _ induction =>
      exact .deeper read held list readItems listed induction

theorem mem_of_listOfItems?
    {items : List Json} {nodes : List Node} (read : listOfItems? items = some nodes)
    {node : Node} (listed : node ∈ nodes) : ∃ item ∈ items, ofJson? item = some node := by
  have related := listOfItems?_eq_some_iff.mp read
  clear read
  induction related with
  | nil => cases listed
  | @cons item first rest nodes readFirst _ induction =>
      rcases List.mem_cons.mp listed with rfl | later
      · exact ⟨item, List.mem_cons_self, readFirst⟩
      · obtain ⟨found, inRest, readFound⟩ := induction later
        exact ⟨found, List.mem_cons_of_mem _ inRest, readFound⟩

/-- Children of a known kind that are not left out are read from a list. -/
theorem children_of_known?
    {name : String} {fieldsOf? : List String → Option (List (String × Json))}
    {listsOf : List String → List (String × Option (List Node))} {node : Node}
    (read : known? name fieldsOf? listsOf = some node)
    {children : List Node} (held : node.children? = some children) :
    children = [] ∨ ∃ names, ("children", some children) ∈ listsOf names := by
  obtain ⟨_, names, _, _, _, readChildren⟩ := exists_of_known? read
  have readList := readChildren children held
  rw [knownChildren?] at readList
  split at readList
  · cases readList
    exact .inl rfl
  · rename_i listed
    rw [readList] at listed
    exact .inr ⟨names, Json.mem_of_lookup? listed⟩

theorem childList_of_known
    {members : List (String × Json)} {node : Node}
    (read : knownOfMembers? members (memberLists members) = some node)
    {children : List Node} (held : node.children? = some children) :
    children = [] ∨
      ∃ items, ChildList items (.obj members) ∧ listOfItems? items = some children := by
  obtain ⟨_, known⟩ := known?_of_knownOfMembers? read
  rcases children_of_known? known held with empty | ⟨_, listed⟩
  · exact .inl empty
  · rw [memberLists_eq_map] at listed
    obtain ⟨member, found, same⟩ := List.mem_map.mp listed
    obtain ⟨key, value⟩ := member
    rw [Prod.mk.injEq] at same
    obtain ⟨rfl, readList⟩ := same
    obtain ⟨items, rfl, readItems⟩ := listOfJson?_eq_some_iff.mp readList
    exact .inr ⟨items, .member found, readItems⟩

theorem childList_of_unknown
    {members : List (String × Json)} {node : Node}
    (read : unknownOfMembers? members (memberLists members) = some node)
    {children : List Node} (held : node.children? = some children) :
    ∃ items, ChildList items (.obj members) ∧ listOfItems? items = some children := by
  obtain ⟨_, _, _, _, _, readChildren, _, _, rfl⟩ := unknownOfMembers?_eq_some_iff.mp read
  rw [children?] at held
  rw [held] at readChildren
  obtain ⟨value, found, readList⟩ := Json.exists_of_optional? readChildren
  obtain ⟨items, rfl, readItems⟩ := listOfJson?_eq_some_iff.mp readList
  exact ⟨items, .member (Json.mem_of_lookup? found), readItems⟩

theorem childList_of_items
    {items : List Json} {node : Node} (read : knownOfItems? items (itemLists items) = some node)
    {children : List Node} (held : node.children? = some children) :
    children = [] ∨
      ∃ inner, ChildList inner (.arr items) ∧ listOfItems? inner = some children := by
  obtain ⟨_, tag, rest, rfl, known⟩ := known?_of_knownOfItems? read
  rcases children_of_known? known held with empty | ⟨names, listed⟩
  · exact .inl empty
  · have inRest := (List.of_mem_zip listed).2
    rw [itemLists, List.tail_cons, itemLists_eq_map] at inRest
    obtain ⟨value, member, readList⟩ := List.mem_map.mp inRest
    obtain ⟨inner, rfl, readItems⟩ := listOfJson?_eq_some_iff.mp readList
    exact .inr ⟨inner, .item (List.mem_cons_of_mem _ member), readItems⟩

/-- The children of a node that is read, if it has any, are read from a list in its place. -/
theorem childList_of_ofJson?
    {json : Json} {node : Node} (read : ofJson? json = some node)
    {children : List Node} (held : node.children? = some children) :
    children = [] ∨ ∃ items, ChildList items json ∧ listOfItems? items = some children := by
  cases json with
  | obj members =>
      rcases ofJson?_obj_eq_some_iff.mp read with known | ⟨_, unknown⟩
      · exact childList_of_known known held
      · exact .inr (childList_of_unknown unknown held)
  | arr items => exact childList_of_items read held
  | _ => cases read

theorem nodePlace_of_reachable
    {json : Json} {found : Node} {nodes : List Node} (reached : Reachable found nodes)
    (read : ∀ node ∈ nodes, ∃ place, NodePlace place json ∧ ofJson? place = some node) :
    ∃ place, NodePlace place json ∧ ofJson? place = some found := by
  induction reached with
  | here member => exact read _ member
  | @deeper siblings children parent member held inside induction =>
      apply induction
      intro child listed
      obtain ⟨place, within, readParent⟩ := read parent member
      rcases childList_of_ofJson? readParent held with rfl | ⟨items, list, readItems⟩
      · cases listed
      · obtain ⟨item, inList, readChild⟩ := mem_of_listOfItems? readItems listed
        have inPlace : NodePlace item place :=
          .deeper readParent held list readItems inList .whole
        exact ⟨item, inPlace.trans within, readChild⟩

section Read

variable {json : Json} {node : Node} (read : ofJson? json = some node)

include read

/-- Only an object that is not read as a node of a known kind is read as one of unknown
kind. -/
theorem isKnown_or_unknown_of_ofJson? :
    node.isKnown = true ∨
      ∃ members, json = .obj members ∧
        knownOfMembers? members (memberLists members) = none ∧
        unknownOfMembers? members (memberLists members) = some node := by
  cases json with
  | obj members =>
      rcases ofJson?_obj_eq_some_iff.mp read with known | ⟨unread, unknown⟩
      · exact .inl (isKnown_of_knownOfMembers? known)
      · exact .inr ⟨members, rfl, unread, unknown⟩
  | arr items =>
      obtain ⟨_, _, _, _, known⟩ := known?_of_knownOfItems? read
      exact .inl (exists_of_known? known).1
  | _ => cases read

theorem kept_of_ofJson? : node.Kept := by
  rcases isKnown_or_unknown_of_ofJson? read with known | ⟨members, rfl, -, unknown⟩
  · exact kept_of_isKnown known
  · obtain ⟨_, _, _, _, _, _, _, _, rfl⟩ := unknownOfMembers?_eq_some_iff.mp unknown
    have fromOthers : ∀ member ∈ Json.sortMembers (Json.canonicalMembers (others members)),
        member ∈ Json.canonicalMembers (others members) := Json.mem_of_mem_sortMembers
    constructor
    · intro member extra
      have key := List.mem_map_of_mem (f := Prod.fst) (fromOthers member extra)
      rw [Json.map_fst_canonicalMembers] at key
      obtain ⟨origin, other, same⟩ := List.mem_map.mp key
      rw [← same]
      exact of_decide_eq_true (List.mem_filter.mp other).2
    · apply Json.canonical_obj (Json.ascending_sortMembers _)
      intro member extra
      exact Json.canonical_of_mem_canonicalMembers _ member (fromOthers member extra)

theorem not_fits_of_ofJson? (plain : ∀ members, json = .obj members → Plain members) :
    node.fits = false := by
  rcases isKnown_or_unknown_of_ofJson? read with known | ⟨members, rfl, unread, unknown⟩
  · exact fits_of_isKnown known
  · apply Bool.eq_false_iff.mpr
    intro fits
    have known := isSome_knownOfMembers? (plain members rfl) unknown fits
    rw [unread] at known
    cases known

/-- Every node of a tree that is read is read from some place. -/
theorem exists_nodePlace {found : Node} (reached : Reachable found [node]) :
    ∃ place, NodePlace place json ∧ ofJson? place = some found := by
  apply nodePlace_of_reachable reached
  intro root listed
  rw [List.mem_singleton.mp listed]
  exact ⟨json, .whole, read⟩

end Read

end MapBlocks.Markdown.Node
