import MapBlocks.Proofs.NodeAttributes

/-!
# Objects read as nodes

An object is read as a node of a known kind field by field, if it repeats none of
the fields of that kind.  As a node of unknown kind it is read if its kind, its
children and its position are each given at most once; all other fields are kept in
canonical form.
-/

namespace MapBlocks.Markdown.Node

section Values

variable {α : Type}

theorem head?_valuesOf (key : String) (members : List (String × α)) :
    (valuesOf key members).head? = Json.lookup? key members := by
  induction members with
  | nil => rfl
  | cons member rest induction =>
      rw [valuesOf, List.filterMap_cons, Json.lookup?]
      by_cases same : member.1 = key
      · simp only [same, if_true, List.head?_cons]
      · simp only [same, if_false]
        exact induction

theorem length_valuesOf (key : String) (members : List (String × α)) :
    (valuesOf key members).length = (members.map Prod.fst).count key := by
  induction members with
  | nil => rfl
  | cons member rest induction =>
      rw [valuesOf, List.filterMap_cons, List.map_cons, List.count_cons, ← induction]
      by_cases same : member.1 = key
      · simp only [same, if_true, List.length_cons, beq_self_eq_true]
        rfl
      · simp only [same, if_false, beq_iff_eq]
        rfl

/-- A key that is not repeated has the value that is found for it, if any. -/
theorem valuesOf_of_count
    {key : String} {members : List (String × α)} (once : (members.map Prod.fst).count key ≤ 1) :
    valuesOf key members = (Json.lookup? key members).toList := by
  rw [← length_valuesOf] at once
  rw [← head?_valuesOf]
  match valuesOf key members, once with
  | [], _ => rfl
  | [_], _ => rfl

theorem valuesOf_eq_singleton_iff
    {key : String} {members : List (String × α)} {value : α} :
    valuesOf key members = [value] ↔
      (members.map Prod.fst).count key = 1 ∧ Json.lookup? key members = some value := by
  rw [← length_valuesOf, ← head?_valuesOf]
  constructor
  · intro only
    rw [only]
    exact ⟨rfl, rfl⟩
  · rintro ⟨one, first⟩
    obtain ⟨found, only⟩ := List.length_eq_one_iff.mp one
    rw [only, List.head?_cons] at first
    cases first
    exact only

theorem valuesOf_map {β : Type} (key : String) (change : α → β) (members : List (String × α)) :
    valuesOf key (members.map fun member => (member.1, change member.2)) =
      (valuesOf key members).map change := by
  rw [valuesOf, valuesOf, List.filterMap_map, List.map_filterMap]
  apply List.filterMap_congr
  intro member _
  by_cases same : member.1 = key
  · simp [same]
  · simp [same]

end Values

theorem memberLists_eq_map (members : List (String × Json)) :
    memberLists members = members.map fun member => (member.1, listOfJson? member.2) := by
  induction members with
  | nil => rfl
  | cons member rest induction => rw [memberLists, induction, List.map_cons]

theorem itemLists_eq_map (items : List Json) : itemLists items = items.map listOfJson? := by
  induction items with
  | nil => rfl
  | cons item rest induction => rw [itemLists, induction, List.map_cons]

theorem lookup?_memberLists (key : String) (members : List (String × Json)) :
    Json.lookup? key (memberLists members) = (Json.lookup? key members).map listOfJson? := by
  rw [memberLists_eq_map, Json.lookup?_map]

theorem valuesOf_memberLists (key : String) (members : List (String × Json)) :
    valuesOf key (memberLists members) = (valuesOf key members).map listOfJson? := by
  rw [memberLists_eq_map, valuesOf_map]

variable {members : List (String × Json)} {name : String}

theorem knownName?_of_mem (known : name ∈ knownNames) : knownName? (.str name) = some name := by
  rw [knownName?, if_pos (List.contains_iff_mem.mpr known)]

theorem knownName?_of_not_mem (unknown : name ∉ knownNames) : knownName? (.str name) = none := by
  rw [knownName?, if_neg (mt List.contains_iff_mem.mp unknown)]

section Known

variable {own : List String}

/-- The fields of a record are the members of its object with these names. -/
theorem lookup?_field
    {names : List String} {key : String} (field : key ∈ names) :
    Json.lookup? key (members.filter fun member => names.contains member.1) =
      Json.lookup? key members :=
  Json.lookup?_filter names.contains (List.contains_iff_mem.mpr field) members

/-- An object that repeats no field of its container kind is read field by field. -/
theorem knownOfMembers?_container
    (tag : valuesOf "type" members = [.str name])
    (names : Container.fieldNames? name = some own)
    (once : ∀ key ∈ own ++ ["children", "position"], (members.map Prod.fst).count key ≤ 1)
    (lists : List (String × Option (List Node))) :
    knownOfMembers? members lists =
      (Container.ofFields? name members).bind fun kind =>
        (knownChildren? lists).bind fun children =>
          (Json.optional? members "position" Position.ofJson?).bind fun position =>
            some (.container kind children position) := by
  have known := Container.mem_knownNames_of_fieldNames? names
  have attributes :
      Container.ofFields? name
          (members.filter fun member =>
            (own ++ ["children", "position"]).contains member.1) =
        Container.ofFields? name members := by
    apply Container.ofFields?_congr names
    intro key listed
    rw [lookup?_field (List.mem_append_left _ listed)]
  have position :
      Json.optional?
          (members.filter fun member => (own ++ ["children", "position"]).contains member.1)
          "position" Position.ofJson? =
        Json.optional? members "position" Position.ofJson? := by
    rw [Json.optional?, Json.optional?, lookup?_field (by simp)]
  rw [knownOfMembers?, tag]
  simp only [knownName?_of_mem known, known?, names, Json.record?_obj once, attributes, position,
    Option.bind_eq_bind, Option.bind_some]

/-- An object that repeats no field of its leaf kind is read field by field. -/
theorem knownOfMembers?_leaf
    (tag : valuesOf "type" members = [.str name])
    (names : Leaf.fieldNames? name = some own)
    (once : ∀ key ∈ own ++ ["position"], (members.map Prod.fst).count key ≤ 1)
    (lists : List (String × Option (List Node))) :
    knownOfMembers? members lists =
      (Leaf.ofFields? name members).bind fun kind =>
        (Json.optional? members "position" Position.ofJson?).bind fun position =>
          some (.leaf kind position) := by
  have known := Leaf.mem_knownNames_of_fieldNames? names
  have attributes :
      Leaf.ofFields? name (members.filter fun member => (own ++ ["position"]).contains member.1) =
        Leaf.ofFields? name members := by
    apply Leaf.ofFields?_congr names
    intro key listed
    rw [lookup?_field (List.mem_append_left _ listed)]
  have position :
      Json.optional? (members.filter fun member => (own ++ ["position"]).contains member.1)
          "position" Position.ofJson? =
        Json.optional? members "position" Position.ofJson? := by
    rw [Json.optional?, Json.optional?, lookup?_field (by simp)]
  rw [knownOfMembers?, tag]
  simp only [knownName?_of_mem known, known?, Leaf.fieldNames?_of_leaf names, names,
    Json.record?_obj once, attributes, position, Option.bind_eq_bind, Option.bind_some]

theorem knownOfMembers?_of_unnamed
    (tag : valuesOf "type" members = [.str name]) (container : Container.fieldNames? name = none)
    (leaf : Leaf.fieldNames? name = none) (lists : List (String × Option (List Node))) :
    knownOfMembers? members lists = none := by
  rw [knownOfMembers?, tag]
  by_cases known : name ∈ knownNames
  · simp only [knownName?_of_mem known, known?, container, leaf, Option.bind_eq_bind,
      Option.bind_some, Option.bind_none]
  · simp only [knownName?_of_not_mem known, Option.bind_eq_bind, Option.bind_none]

end Known

/-- Children that are given at most once may be left out or be null. -/
theorem unknownChildren?_eq_some_iff {children? : Option (List Node)} :
    unknownChildren? (valuesOf "children" members)
        (valuesOf "children" (memberLists members)) = some children? ↔
      (members.map Prod.fst).count "children" ≤ 1 ∧
        Json.optional? members "children" listOfJson? = some children? := by
  rw [valuesOf_memberLists, ← length_valuesOf, Json.optional?, ← head?_valuesOf]
  rcases valuesOf "children" members with _ | ⟨value, _ | ⟨second, rest⟩⟩
  · simp [unknownChildren?]
  · have one : [value].length ≤ 1 := le_rfl
    rw [List.head?_cons, List.map_singleton]
    cases value with
    | null => simp [unknownChildren?]
    | arr items => cases read : listOfJson? (.arr items) <;> simp [unknownChildren?, read]
    | _ => simp [unknownChildren?, listOfJson?]
  · simp [unknownChildren?]

/-- All fields but the kind, the children and the position of a node of unknown kind. -/
def others (members : List (String × Json)) : List (String × Json) :=
  members.filter fun member => member.1 ∉ ["type", "children", "position"]

/-- An object is read as a node of unknown kind with its children and its position, each
given at most once, and its other fields in canonical form. -/
theorem unknownOfMembers?_eq_some_iff {node : Node} :
    unknownOfMembers? members (memberLists members) = some node ↔
      ∃ kind children position,
        valuesOf "type" members = [.str kind] ∧
        (members.map Prod.fst).count "children" ≤ 1 ∧
        Json.optional? members "children" listOfJson? = some children ∧
        (members.map Prod.fst).count "position" ≤ 1 ∧
        Json.optional? members "position" Position.ofJson? = some position ∧
        node = .unknown kind children position
          (Json.sortMembers (Json.canonicalMembers (others members))) := by
  rw [unknownOfMembers?]
  constructor
  · intro read
    split at read
    case h_1 kind tag =>
      by_cases oncePosition : (valuesOf "position" members).length ≤ 1
      · simp only [oncePosition, if_true, Option.bind_eq_bind, Option.bind_eq_some_iff,
          Option.some.injEq] at read
        obtain ⟨children, readChildren, position, readPosition, rfl⟩ := read
        obtain ⟨onceChildren, readChildren⟩ := unknownChildren?_eq_some_iff.mp readChildren
        rw [length_valuesOf] at oncePosition
        exact ⟨kind, children, position, tag, onceChildren, readChildren, oncePosition,
          readPosition, rfl⟩
      · simp only [oncePosition, if_false, Option.bind_eq_bind, Option.bind_none,
          Option.bind_eq_some_iff] at read
        obtain ⟨_, _, read⟩ := read
        cases read
    case h_2 => cases read
  · rintro ⟨kind, children, position, tag, onceChildren, readChildren, oncePosition,
      readPosition, rfl⟩
    rw [← length_valuesOf] at oncePosition
    simp only [tag, unknownChildren?_eq_some_iff.mpr ⟨onceChildren, readChildren⟩, oncePosition,
      if_true, readPosition, Option.bind_eq_bind, Option.bind_some]
    rfl

section Readings

variable {node : Node}

/-- What was read for the fields of a node of a known kind. -/
theorem exists_of_known?
    {fieldsOf? : List String → Option (List (String × Json))}
    {listsOf : List String → List (String × Option (List Node))}
    (read : known? name fieldsOf? listsOf = some node) :
    node.isKnown = true ∧
      ∃ names fields, fieldsOf? names = some fields ∧
        Json.optional? fields "position" Position.ofJson? = some node.position? ∧
        ∀ children, node.children? = some children →
          knownChildren? (listsOf names) = some children := by
  rw [known?] at read
  split at read
  · simp only [Option.bind_eq_bind, Option.bind_eq_some_iff, Option.some.injEq] at read
    obtain ⟨fields, record, _, _, children, readChildren, _, readPosition, rfl⟩ := read
    refine ⟨rfl, _, fields, record, readPosition, ?_⟩
    intro held same
    cases same
    exact readChildren
  · simp only [Option.bind_eq_bind, Option.bind_eq_some_iff, Option.some.injEq] at read
    obtain ⟨_, _, fields, record, _, _, _, readPosition, rfl⟩ := read
    refine ⟨rfl, _, fields, record, readPosition, ?_⟩
    intro held same
    cases same

theorem known?_of_knownOfMembers?
    {lists : List (String × Option (List Node))}
    (read : knownOfMembers? members lists = some node) :
    ∃ name, known? name (fun names => Json.record? names (.obj members)) (fun _ => lists) =
      some node := by
  rw [knownOfMembers?] at read
  split at read
  · obtain ⟨name, -, known⟩ := Option.bind_eq_some_iff.mp read
    exact ⟨name, known⟩
  · cases read

theorem known?_of_knownOfItems?
    {items : List Json} {lists : List (Option (List Node))}
    (read : knownOfItems? items lists = some node) :
    ∃ name tag rest, items = tag :: rest ∧
      known? name (fun names => Json.record? names (.arr rest))
        (fun names => names.zip lists.tail) = some node := by
  cases items with
  | nil => cases read
  | cons tag rest =>
      obtain ⟨name, -, known⟩ := Option.bind_eq_some_iff.mp read
      exact ⟨name, tag, rest, rfl, known⟩

theorem isKnown_of_knownOfMembers?
    {lists : List (String × Option (List Node))}
    (read : knownOfMembers? members lists = some node) : node.isKnown = true := by
  obtain ⟨_, known⟩ := known?_of_knownOfMembers? read
  exact (exists_of_known? known).1

theorem isKnown_of_unknownOfMembers?
    (read : unknownOfMembers? members (memberLists members) = some node) :
    node.isKnown = false := by
  obtain ⟨_, _, _, _, _, _, _, _, rfl⟩ := unknownOfMembers?_eq_some_iff.mp read
  rfl

theorem ofJson?_obj_eq_some_iff :
    ofJson? (.obj members) = some node ↔
      knownOfMembers? members (memberLists members) = some node ∨
        knownOfMembers? members (memberLists members) = none ∧
          unknownOfMembers? members (memberLists members) = some node := by
  rw [ofJson?]
  cases knownOfMembers? members (memberLists members) with
  | none => simp
  | some known => simp

end Readings

theorem listOfItems?_eq_some_iff {items : List Json} {nodes : List Node} :
    listOfItems? items = some nodes ↔
      List.Forall₂ (fun item node => ofJson? item = some node) items nodes := by
  induction items generalizing nodes with
  | nil =>
      rw [listOfItems?, List.forall₂_nil_left_iff, Option.some.injEq, eq_comm]
  | cons item rest induction =>
      rw [listOfItems?]
      simp only [Option.bind_eq_bind, Option.bind_eq_some_iff, Option.some.injEq]
      constructor
      · intro read
        obtain ⟨node, first, others, readRest, rfl⟩ := read
        exact .cons first (induction.mp readRest)
      · intro related
        cases related with
        | cons first others => exact ⟨_, first, _, induction.mpr others, rfl⟩

theorem listOfJson?_eq_some_iff {json : Json} {nodes : List Node} :
    listOfJson? json = some nodes ↔
      ∃ items, json = .arr items ∧ listOfItems? items = some nodes := by
  cases json <;> simp [listOfJson?]

end MapBlocks.Markdown.Node
