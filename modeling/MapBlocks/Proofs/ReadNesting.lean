import MapBlocks.Proofs.ReadNodes

/-!
# How deep read nodes are nested

Arrays and objects are nested at most one level deeper in the value written for a
node than in the value it was read from: a node that holds other nodes is written
with its list of children, even where that list is empty and was left out.
-/

namespace MapBlocks.Json

mutual

theorem nesting_canonical_le : (value : Json) → value.canonical.nesting ≤ value.nesting
  | .null => le_rfl
  | .bool _ => le_rfl
  | .num _ => le_rfl
  | .str _ => le_rfl
  | .arr items => by
      rw [canonical, nesting, nesting]
      exact Nat.succ_le_succ (nestingOfItems_canonicalItems_le items)
  | .obj members => by
      rw [canonical, nesting, nesting]
      apply Nat.succ_le_succ
      apply nestingOfMembers_le_iff.mpr
      intro member found
      exact nestingOfMembers_le_iff.mp (nestingOfMembers_canonicalMembers_le members) member
        (mem_of_mem_sortMembers member found)

theorem nestingOfItems_canonicalItems_le :
    (items : List Json) → nestingOfItems (canonicalItems items) ≤ nestingOfItems items
  | [] => le_rfl
  | item :: rest =>
      max_le_max (nesting_canonical_le item) (nestingOfItems_canonicalItems_le rest)

theorem nestingOfMembers_canonicalMembers_le :
    (members : List (String × Json)) →
      nestingOfMembers (canonicalMembers members) ≤ nestingOfMembers members
  | [] => le_rfl
  | (_, value) :: rest =>
      max_le_max (nesting_canonical_le value) (nestingOfMembers_canonicalMembers_le rest)

end

/-- The fields of a record are nested less deep than the record. -/
theorem nesting_lt_of_record?
    {names : List String} {value : Json} {fields : List (String × Json)}
    (read : record? names value = some fields) {field : String × Json} (listed : field ∈ fields) :
    field.2.nesting < value.nesting := by
  cases value with
  | obj members =>
      rw [record?] at read
      split at read
      · cases read
        have member := (List.mem_filter.mp listed).1
        exact Nat.lt_succ_of_le (nestingOfMembers_le_iff.mp le_rfl field member)
      · cases read
  | arr items =>
      rw [record?] at read
      split at read
      · cases read
        have item := (List.of_mem_zip listed).2
        exact Nat.lt_succ_of_le (nestingOfItems_le_iff.mp le_rfl field.2 item)
      · cases read
  | _ => cases read

end MapBlocks.Json

namespace MapBlocks.Markdown

theorem Point.nesting_pos_of_ofJson?
    {value : Json} {point : Point} (read : Point.ofJson? value = some point) :
    0 < value.nesting := by
  obtain ⟨fields, record, read⟩ := Option.bind_eq_some_iff.mp read
  obtain ⟨_, line, _⟩ := Option.bind_eq_some_iff.mp read
  obtain ⟨_, found, _⟩ := Option.bind_eq_some_iff.mp line
  exact Nat.zero_lt_of_lt (Json.nesting_lt_of_record? record (Json.mem_of_lookup? found))

theorem Position.nesting_of_ofJson?
    {value : Json} {position : Position} (read : Position.ofJson? value = some position) :
    2 ≤ value.nesting := by
  obtain ⟨fields, record, read⟩ := Option.bind_eq_some_iff.mp read
  obtain ⟨_, start, _⟩ := Option.bind_eq_some_iff.mp read
  obtain ⟨_, found, point⟩ := Option.bind_eq_some_iff.mp start
  have inner := Point.nesting_pos_of_ofJson? point
  have outer := Json.nesting_lt_of_record? record (Json.mem_of_lookup? found)
  exact Nat.lt_of_le_of_lt inner outer

theorem Position.nesting_toJson (position : Position) : position.toJson.nesting = 2 := by
  obtain ⟨⟨_, _, start?⟩, ⟨_, _, stop?⟩⟩ := position
  cases start? <;> cases stop? <;> rfl

namespace Node

theorem position_of_known?
    {name : String} {fieldsOf? : List String → Option (List (String × Json))}
    {listsOf : List String → List (String × Option (List Node))} {node : Node}
    (read : known? name fieldsOf? listsOf = some node)
    {position : Position} (placed : node.position? = some position) :
    ∃ names fields value, fieldsOf? names = some fields ∧
      ("position", value) ∈ fields ∧ Position.ofJson? value = some position := by
  obtain ⟨_, names, fields, record, readPosition, _⟩ := exists_of_known? read
  rw [placed] at readPosition
  obtain ⟨value, found, readValue⟩ := Json.exists_of_optional? readPosition
  exact ⟨names, fields, value, record, Json.mem_of_lookup? found, readValue⟩

theorem ChildList.nesting {items : List Json} {json : Json} (list : ChildList items json) :
    Json.nestingOfItems items + 2 ≤ json.nesting := by
  cases list with
  | member listed => exact Nat.succ_le_succ (Json.nestingOfMembers_le_iff.mp le_rfl _ listed)
  | item listed => exact Nat.succ_le_succ (Json.nestingOfItems_le_iff.mp le_rfl _ listed)

section Read

variable {json : Json} {node : Node} (read : ofJson? json = some node)

include read

theorem nesting_pos_of_ofJson? : 0 < json.nesting := by
  cases json with
  | obj members => exact Nat.succ_pos _
  | arr items => exact Nat.succ_pos _
  | _ => cases read

theorem nesting_of_position? {position : Position} (placed : node.position? = some position) :
    2 ≤ json.nesting := by
  cases json with
  | obj members =>
      rcases ofJson?_obj_eq_some_iff.mp read with known | ⟨_, unknown⟩
      · obtain ⟨_, known⟩ := known?_of_knownOfMembers? known
        obtain ⟨_, _, value, record, listed, readValue⟩ := position_of_known? known placed
        have inner := Position.nesting_of_ofJson? readValue
        exact inner.trans (Json.nesting_lt_of_record? record listed).le
      · obtain ⟨_, _, _, _, _, _, _, readPosition, rfl⟩ :=
          unknownOfMembers?_eq_some_iff.mp unknown
        cases placed
        obtain ⟨value, found, readValue⟩ := Json.exists_of_optional? readPosition
        have inner := Position.nesting_of_ofJson? readValue
        have member := Json.nestingOfMembers_le_iff.mp le_rfl _ (Json.mem_of_lookup? found)
        exact inner.trans (member.trans (Nat.le_succ _))
  | arr items =>
      obtain ⟨_, tag, rest, rfl, known⟩ := known?_of_knownOfItems? read
      obtain ⟨_, _, value, record, listed, readValue⟩ := position_of_known? known placed
      have inner := Position.nesting_of_ofJson? readValue
      have outer : (Json.arr rest).nesting ≤ (Json.arr (tag :: rest)).nesting :=
        Nat.succ_le_succ (le_max_right _ _)
      exact inner.trans ((Json.nesting_lt_of_record? record listed).le.trans outer)
  | _ => cases read

theorem nesting_of_extras : ∀ member ∈ node.extras, member.2.nesting ≤ json.nesting := by
  rcases isKnown_or_unknown_of_ofJson? read with known | ⟨members, rfl, -, unknown⟩
  · rw [extras_of_isKnown known]
    exact List.forall_mem_nil _
  · obtain ⟨_, _, _, _, _, _, _, _, rfl⟩ := unknownOfMembers?_eq_some_iff.mp unknown
    intro member extra
    have canonical := Json.mem_of_mem_sortMembers member extra
    have bounded : Json.nestingOfMembers (Json.canonicalMembers (others members)) ≤
        Json.nestingOfMembers members := by
      apply (Json.nestingOfMembers_canonicalMembers_le _).trans
      apply Json.nestingOfMembers_le_iff.mpr
      intro origin other
      exact Json.nestingOfMembers_le_iff.mp le_rfl origin (List.mem_filter.mp other).1
    exact (Json.nestingOfMembers_le_iff.mp bounded member canonical).trans (Nat.le_succ _)

end Read

/-- The attributes of a container are no arrays and no objects. -/
theorem nesting_of_container_entry (kind : Container) :
    ∀ entry ∈ kind.entries, ∀ value ∈ entry.2, value.nesting = 0 := by
  have optional {α : Type} {write : α → Json} (flat : ∀ a, (write a).nesting = 0)
      (field? : Option α) : ∀ value ∈ field?.map write, value.nesting = 0 := by
    intro value written
    obtain ⟨a, -, rfl⟩ := Option.map_eq_some_iff.mp written
    exact flat a
  cases kind with
  | root | paragraph | blockquote | emphasis | strong => exact List.forall_mem_nil _
  | heading depth => simp [Container.entries, Json.nesting]
  | list ordered start spread =>
      simp only [Container.entries, List.forall_mem_cons, Option.mem_some_iff, forall_eq']
      exact ⟨rfl, optional (fun _ => rfl) start, rfl, List.forall_mem_nil _⟩
  | listItem spread checked =>
      simp only [Container.entries, List.forall_mem_cons, Option.mem_some_iff, forall_eq']
      exact ⟨rfl, optional (fun _ => rfl) checked, List.forall_mem_nil _⟩
  | link url title =>
      simp only [Container.entries, List.forall_mem_cons, Option.mem_some_iff, forall_eq']
      exact ⟨rfl, optional (fun _ => rfl) title, List.forall_mem_nil _⟩

theorem nesting_of_attribute (node : Node) :
    ∀ entry ∈ node.attributes, ∀ value ∈ entry.2, value.nesting = 0 := by
  cases node with
  | container kind children position => exact nesting_of_container_entry kind
  | leaf kind position =>
      intro entry listed value written
      obtain ⟨text, rfl⟩ := kind.text_of_entry entry listed value written
      rfl
  | unknown kind children position fields => exact List.forall_mem_nil _

/-- A written node is nested one level deeper than what its fields allow. -/
theorem nesting_toJson_le_of_fields
    {node : Node} {limit : Nat}
    (extras : ∀ member ∈ node.extras, member.2.nesting ≤ limit)
    (position : ∀ position, node.position? = some position → 2 ≤ limit)
    (children : ∀ nodes, node.children? = some nodes →
      (Json.arr (listToJson nodes)).nesting ≤ limit) :
    node.toJson.nesting ≤ limit + 1 := by
  have described : ∀ entry ∈ node.entries, ∀ value ∈ entry.2, value.nesting ≤ limit := by
    apply forall_entries (·.nesting ≤ limit) (Nat.zero_le _) _ children
    · intro found placed
      rw [Position.nesting_toJson]
      exact position found placed
    · intro entry listed value written
      rw [node.nesting_of_attribute entry listed value written]
      exact Nat.zero_le _
  rw [toJson_eq, Json.nesting, members]
  apply Nat.succ_le_succ
  apply Json.nestingOfMembers_le_iff.mpr
  rw [List.forall_mem_append]
  refine ⟨?_, extras⟩
  intro member written
  exact described _ (Json.mem_present_iff.mp written) _ rfl

mutual

theorem nesting_toJson_le :
    (node : Node) → {json : Json} → ofJson? json = some node →
      node.toJson.nesting ≤ json.nesting + 1
  | .container kind children position, json, read => by
      apply nesting_toJson_le_of_fields (nesting_of_extras read)
        fun _ placed => nesting_of_position? read placed
      intro nodes held
      cases held
      exact nesting_children_le children (nesting_pos_of_ofJson? read)
        (childList_of_ofJson? read rfl)
  | .leaf kind position, json, read => by
      apply nesting_toJson_le_of_fields (nesting_of_extras read)
        fun _ placed => nesting_of_position? read placed
      intro nodes held
      cases held
  | .unknown kind none position fields, json, read => by
      apply nesting_toJson_le_of_fields (nesting_of_extras read)
        fun _ placed => nesting_of_position? read placed
      intro nodes held
      cases held
  | .unknown kind (some children) position fields, json, read => by
      apply nesting_toJson_le_of_fields (nesting_of_extras read)
        fun _ placed => nesting_of_position? read placed
      intro nodes held
      cases held
      exact nesting_children_le children (nesting_pos_of_ofJson? read)
        (childList_of_ofJson? read rfl)

theorem nesting_children_le :
    (children : List Node) → {json : Json} → 0 < json.nesting →
      (children = [] ∨ ∃ items, ChildList items json ∧ listOfItems? items = some children) →
      (Json.arr (listToJson children)).nesting ≤ json.nesting
  | children, json, deep, lists => by
      rcases lists with rfl | ⟨items, list, read⟩
      -- An empty list that was left out is the one that adds a level.
      · exact deep
      · have inner := nestingOfItems_listToJson_le children read
        exact (Nat.succ_le_succ inner).trans list.nesting

theorem nestingOfItems_listToJson_le :
    (nodes : List Node) → {items : List Json} → listOfItems? items = some nodes →
      Json.nestingOfItems (listToJson nodes) ≤ Json.nestingOfItems items + 1
  | [], _, _ => Nat.zero_le _
  | node :: rest, items, read => by
      cases listOfItems?_eq_some_iff.mp read with
      | @cons item _ others _ readNode related =>
          have first := nesting_toJson_le node readNode
          have later := nestingOfItems_listToJson_le rest (listOfItems?_eq_some_iff.mpr related)
          rw [listToJson, Json.nestingOfItems, Json.nestingOfItems]
          omega

end

end Node

end MapBlocks.Markdown
