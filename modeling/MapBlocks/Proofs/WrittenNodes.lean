import MapBlocks.Proofs.FittingFields
import MapBlocks.Proofs.ReachableNodes
import MapBlocks.Proofs.WrittenPositions

/-!
# Written nodes

A tree is read back from the value written for it unless the fields of one of its
nodes of unknown kind fit a known kind of the same name.  Its numbers read back from
their texts if those in the other fields of its nodes do.
-/

namespace MapBlocks.Markdown.Node

open Transform

/-- The fields of a node of unknown kind apart from those that all nodes share. -/
def extras : Node → List (String × Json)
  | .container _ _ _ => []
  | .leaf _ _ => []
  | .unknown _ _ _ fields => fields

/-- The other fields of a node are as they are kept: none has the name of a shared
field, and they are in canonical form. -/
structure Kept (node : Node) : Prop where
  other : ∀ member ∈ node.extras, member.1 ∉ ["type", "children", "position"]
  canonical : (Json.obj node.extras).canonical = .obj node.extras

/-- The attributes of a node of a known kind. -/
def attributes : Node → List (String × Option Json)
  | .container kind _ _ => kind.entries
  | .leaf kind _ => kind.entries
  | .unknown _ _ _ _ => []

/-- The described fields of a node, some of which may have no value. -/
def entries (node : Node) : List (String × Option Json) :=
  ("type", some (.str node.typeName)) :: (node.attributes ++
    [("children", node.children?.map fun nodes => .arr (listToJson nodes)),
      ("position", node.position?.map Position.toJson)])

/-- The members of the object that is written for a node. -/
def members (node : Node) : List (String × Json) := Json.present node.entries ++ node.extras

theorem toJson_eq (node : Node) : node.toJson = .obj node.members := by
  rw [members, entries, Json.present_cons_some, Json.present_append]
  cases node with
  | container kind children position =>
      rw [toJson, Container.fields_eq, extras, List.append_nil]
      rfl
  | leaf kind position =>
      rw [toJson, Leaf.fields_eq, extras, List.append_nil]
      rfl
  | unknown kind children position fields => cases children <;> cases position <;> rfl

theorem distinct_entries (node : Node) : (node.entries.map Prod.fst).Nodup := by
  cases node with
  | container kind children position =>
      cases kind <;> simp [entries, attributes, Container.entries]
  | leaf kind position => cases kind <;> simp [entries, attributes, Leaf.entries]
  | unknown kind children position fields => simp [entries, attributes]

/-- What holds of the parts of a node holds of all its described fields. -/
theorem forall_entries
    (holds : Json → Prop) {node : Node} (name : holds (.str node.typeName))
    (own : ∀ entry ∈ node.attributes, ∀ value ∈ entry.2, holds value)
    (children : ∀ nodes, node.children? = some nodes → holds (.arr (listToJson nodes)))
    (position : ∀ position, node.position? = some position → holds position.toJson) :
    ∀ entry ∈ node.entries, ∀ value ∈ entry.2, holds value := by
  simp only [entries, List.forall_mem_cons, List.forall_mem_append, Option.mem_some_iff,
    forall_eq']
  refine ⟨name, own, ?_, ?_, List.forall_mem_nil _⟩
  · intro value written
    obtain ⟨nodes, held, rfl⟩ := Option.map_eq_some_iff.mp written
    exact children nodes held
  · intro value written
    obtain ⟨found, placed, rfl⟩ := Option.map_eq_some_iff.mp written
    exact position found placed

section Unknown

variable {node : Node} (unknown : node.isKnown = false)

include unknown

theorem attributes_of_unknown : node.attributes = [] := by
  cases node with
  | container kind children position => cases unknown
  | leaf kind position => cases unknown
  | unknown kind children position fields => rfl

/-- The described fields of a node of unknown kind are those that all nodes share. -/
theorem map_fst_entries_of_unknown :
    node.entries.map Prod.fst = ["type", "children", "position"] := by
  rw [entries, attributes_of_unknown unknown]
  rfl

theorem shared_of_entries
    {key : String} (described : key ∈ (Json.present node.entries).map Prod.fst) :
    key ∈ ["type", "children", "position"] := by
  rw [← map_fst_entries_of_unknown unknown]
  exact (Json.map_fst_present_sublist _).subset described

theorem lookup?_members_of_other
    {key : String} (other : key ∉ ["type", "children", "position"]) :
    Json.lookup? key node.members = Json.lookup? key node.extras := by
  have described : key ∉ (Json.present node.entries).map Prod.fst :=
    fun found => other (shared_of_entries unknown found)
  rw [members, Json.lookup?_append, Json.lookup?_eq_none_iff.mpr described, Option.none_or]

end Unknown

theorem extras_of_isKnown {node : Node} (known : node.isKnown = true) : node.extras = [] := by
  cases node with
  | container kind children position => rfl
  | leaf kind position => rfl
  | unknown kind children position fields => cases known

theorem kept_of_isKnown {node : Node} (known : node.isKnown = true) : node.Kept := by
  constructor
  · rw [extras_of_isKnown known]
    exact List.forall_mem_nil _
  · rw [extras_of_isKnown known]
    rfl

section Kept

variable {node : Node} (kept : node.Kept)

include kept

/-- The described fields of a node are apart from the others. -/
theorem Kept.disjoint : ∀ entry ∈ node.entries, entry.1 ∉ node.extras.map Prod.fst := by
  intro entry listed found
  cases known : node.isKnown with
  | true =>
      rw [extras_of_isKnown known] at found
      cases found
  | false =>
      obtain ⟨member, extra, same⟩ := List.mem_map.mp found
      apply kept.other member extra
      rw [same, ← map_fst_entries_of_unknown known]
      exact List.mem_map_of_mem listed

theorem Kept.lookup?_members
    {key : String} {value? : Option Json} (listed : (key, value?) ∈ node.entries) :
    Json.lookup? key node.members = value? := by
  rw [members, Json.lookup?_append, Json.lookup?_present node.distinct_entries listed,
    Json.lookup?_eq_none_iff.mpr (kept.disjoint _ listed), Option.or_none]

theorem Kept.lookup?_children :
    Json.lookup? "children" node.members =
      node.children?.map fun nodes => .arr (listToJson nodes) :=
  kept.lookup?_members (List.mem_cons_of_mem _ (List.mem_append_right _ List.mem_cons_self))

theorem Kept.lookup?_position :
    Json.lookup? "position" node.members = node.position?.map Position.toJson :=
  kept.lookup?_members (List.mem_cons_of_mem _ (List.mem_append_right _
    (List.mem_cons_of_mem _ List.mem_cons_self)))

theorem Kept.optional?_position :
    Json.optional? node.members "position" Position.ofJson? = some node.position? := by
  apply Json.optional?_of_lookup? Position.toJson kept.lookup?_position
  · rfl
  · intro position _
    exact position.ofJson?_toJson

theorem Kept.distinct_members : (node.members.map Prod.fst).Nodup := by
  have described := Json.map_fst_present_sublist node.entries
  rw [members, List.map_append]
  apply List.nodup_append'.mpr
  refine ⟨node.distinct_entries.sublist described,
    (Json.canonical_obj_iff.mp kept.canonical).1.nodup, ?_⟩
  intro key first later
  obtain ⟨entry, listed, rfl⟩ := List.mem_map.mp (described.subset first)
  exact kept.disjoint entry listed later

theorem Kept.once (key : String) : (node.members.map Prod.fst).count key ≤ 1 :=
  List.nodup_iff_count_le_one.mp kept.distinct_members key

theorem Kept.valuesOf_type : valuesOf "type" node.members = [.str node.typeName] := by
  rw [valuesOf_of_count (kept.once "type"), kept.lookup?_members List.mem_cons_self]
  rfl

theorem Kept.plain : Plain node.members := by
  apply plain_of_distinct kept.distinct_members
  rw [kept.lookup?_children]
  cases node.children? <;> simp

end Kept

/-- A container is read back exactly if its children are. -/
theorem ofJson?_container_iff
    {kind : Container} {children : List Node} {position : Option Position} :
    ofJson? (container kind children position).toJson = some (container kind children position) ↔
      listOfItems? (listToJson children) = some children := by
  let node := container kind children position
  have kept : node.Kept := kept_of_isKnown rfl
  have tag : valuesOf "type" node.members = [.str kind.name] := kept.valuesOf_type
  have attributes : Container.ofFields? kind.name node.members = some kind := by
    apply kind.ofFields?_of_lookup
    intro entry listed
    exact kept.lookup?_members (List.mem_cons_of_mem _ (List.mem_append_left _ listed))
  have held : knownChildren? (memberLists node.members) = listOfItems? (listToJson children) := by
    rw [knownChildren?, lookup?_memberLists, kept.lookup?_children]
    rfl
  have known : knownOfMembers? node.members (memberLists node.members) =
      (listOfItems? (listToJson children)).map fun read => container kind read position := by
    rw [knownOfMembers?_container tag kind.fieldNames?_name fun key _ => kept.once key,
      attributes, held, kept.optional?_position]
    cases listOfItems? (listToJson children) <;> rfl
  rw [toJson_eq, ofJson?_obj_eq_some_iff, known]
  constructor
  · intro read
    rcases read with known | ⟨_, unknown⟩
    · obtain ⟨again, listed, same⟩ := Option.map_eq_some_iff.mp known
      cases same
      exact listed
    · cases isKnown_of_unknownOfMembers? unknown
  · intro read
    left
    rw [read, Option.map_some]

theorem ofJson?_leaf (kind : Leaf) (position : Option Position) :
    ofJson? (leaf kind position).toJson = some (leaf kind position) := by
  let node := leaf kind position
  have kept : node.Kept := kept_of_isKnown rfl
  have tag : valuesOf "type" node.members = [.str kind.name] := kept.valuesOf_type
  have attributes : Leaf.ofFields? kind.name node.members = some kind := by
    apply kind.ofFields?_of_lookup
    intro entry listed
    exact kept.lookup?_members (List.mem_cons_of_mem _ (List.mem_append_left _ listed))
  rw [toJson_eq, ofJson?_obj_eq_some_iff]
  left
  rw [knownOfMembers?_leaf tag kind.fieldNames?_name fun key _ => kept.once key, attributes,
    kept.optional?_position]
  rfl

section Unknown

variable {node : Node} (kept : node.Kept) (unknown : node.isKnown = false)

include kept unknown

theorem Kept.others_members : others node.members = node.extras := by
  have dropped : (Json.present node.entries).filter
      (fun member => member.1 ∉ ["type", "children", "position"]) = [] := by
    apply List.filter_eq_nil_iff.mpr
    intro member described
    rw [decide_eq_true_iff, not_not]
    exact shared_of_entries unknown (List.mem_map_of_mem described)
  have stayed : node.extras.filter (fun member => member.1 ∉ ["type", "children", "position"]) =
      node.extras := by
    apply List.filter_eq_self.mpr
    intro member extra
    exact decide_eq_true (kept.other member extra)
  rw [others, members, List.filter_append, dropped, stayed, List.nil_append]

theorem Kept.knownOfMembers?_of_not_fits
    (unfit : node.fits = false) (lists : List (String × Option (List Node))) :
    knownOfMembers? node.members lists = none := by
  have tag := kept.valuesOf_type
  have misfit : Container.ofFields? node.typeName node.extras = none ∧
      Leaf.ofFields? node.typeName node.extras = none := by
    cases node with
    | container kind children position => cases unknown
    | leaf kind position => cases unknown
    | unknown kind children position fields => simpa [fits, typeName, extras] using unfit
  cases container : Container.fieldNames? node.typeName with
  | some own =>
      have none : Container.ofFields? node.typeName node.members = none := by
        rw [← misfit.1]
        apply Container.ofFields?_congr container
        intro key listed
        rw [lookup?_members_of_other unknown
          (Container.not_mem_fieldNames? container key listed)]
      rw [knownOfMembers?_container tag container (fun key _ => kept.once key), none,
        Option.bind_none]
  | none =>
      cases leaf : Leaf.fieldNames? node.typeName with
      | some own =>
          have none : Leaf.ofFields? node.typeName node.members = none := by
            rw [← misfit.2]
            apply Leaf.ofFields?_congr leaf
            intro key listed
            rw [lookup?_members_of_other unknown (Leaf.not_mem_fieldNames? leaf key listed)]
          rw [knownOfMembers?_leaf tag leaf (fun key _ => kept.once key), none, Option.bind_none]
      | none => exact knownOfMembers?_of_unnamed tag container leaf lists

theorem Kept.unknownOfMembers?_iff :
    unknownOfMembers? node.members (memberLists node.members) = some node ↔
      ∀ nodes, node.children? = some nodes → listOfItems? (listToJson nodes) = some nodes := by
  have again : Json.optional? node.members "children" listOfJson? = some node.children? ↔
      ∀ nodes, node.children? = some nodes → listOfItems? (listToJson nodes) = some nodes := by
    rw [Json.optional?, kept.lookup?_children]
    cases node.children? with
    | none => simp
    | some nodes => simp [listOfJson?]
  rw [← again]
  constructor
  · intro read
    obtain ⟨_, _, _, _, _, readChildren, _, _, same⟩ := unknownOfMembers?_eq_some_iff.mp read
    rw [readChildren, same, children?]
  · intro readChildren
    have sorted : Json.sortMembers (Json.canonicalMembers (others node.members)) =
        node.extras := by
      have canonical := kept.canonical
      rwa [kept.others_members unknown, ← Json.obj.injEq, ← Json.canonical]
    apply unknownOfMembers?_eq_some_iff.mpr
    refine ⟨node.typeName, node.children?, node.position?, kept.valuesOf_type,
      kept.once "children", readChildren, kept.once "position", kept.optional?_position, ?_⟩
    rw [sorted]
    cases node with
    | container kind children position => cases unknown
    | leaf kind position => cases unknown
    | unknown kind children position fields => rfl

/-- A node of unknown kind is read back exactly if its fields do not fit a known kind
and its children, if it has any, are read back. -/
theorem Kept.ofJson?_toJson_iff :
    ofJson? node.toJson = some node ↔
      node.fits = false ∧
        ∀ nodes, node.children? = some nodes → listOfItems? (listToJson nodes) = some nodes := by
  rw [toJson_eq, ofJson?_obj_eq_some_iff, ← kept.unknownOfMembers?_iff unknown]
  constructor
  · intro read
    rcases read with known | ⟨unread, read⟩
    · rw [isKnown_of_knownOfMembers? known] at unknown
      cases unknown
    · refine ⟨?_, read⟩
      apply Bool.eq_false_iff.mpr
      intro fits
      -- Fields that fit would have been read as those of a known kind before.
      have known := isSome_knownOfMembers? kept.plain read fits
      rw [unread] at known
      cases known
  · intro unfit
    exact .inr ⟨kept.knownOfMembers?_of_not_fits unknown unfit.1 _, unfit.2⟩

end Unknown

-- The induction is on the tree, with its lists of siblings as the other half: a node
-- settles what happens at itself, and leaves its children to their list.
mutual

/-- A tree is read back exactly if the fields of none of its nodes of unknown kind fit
a known kind of the same name. -/
theorem ofJson?_toJson_iff :
    (node : Node) → (∀ found, Reachable found [node] → found.Kept) →
    (ofJson? node.toJson = some node ↔ ∀ found, Reachable found [node] → found.fits = false)
  | .container kind children position, kept => by
      rw [forall_reachable_singleton_iff] at kept ⊢
      have below := listOfItems?_listToJson_iff children (kept.2 children rfl)
      rw [ofJson?_container_iff, below]
      constructor
      · intro unfit
        refine ⟨rfl, ?_⟩
        intro nodes held
        cases held
        exact unfit
      · intro unfit
        exact unfit.2 children rfl
  | .leaf kind position, _ => by
      rw [forall_reachable_singleton_iff]
      constructor
      · intro _
        refine ⟨rfl, ?_⟩
        intro nodes held
        cases held
      · intro _
        exact ofJson?_leaf kind position
  | .unknown kind none position fields, kept => by
      rw [forall_reachable_singleton_iff] at kept ⊢
      rw [kept.1.ofJson?_toJson_iff rfl]
      apply and_congr_right
      intro _
      constructor
      · intro _ nodes held
        cases held
      · intro _ nodes held
        cases held
  | .unknown kind (some children) position fields, kept => by
      rw [forall_reachable_singleton_iff] at kept ⊢
      have below := listOfItems?_listToJson_iff children (kept.2 children rfl)
      rw [kept.1.ofJson?_toJson_iff rfl]
      apply and_congr_right
      intro _
      constructor
      · intro read nodes held
        cases held
        exact below.mp (read children rfl)
      · intro unfit nodes held
        cases held
        exact below.mpr (unfit children rfl)

theorem listOfItems?_listToJson_iff :
    (nodes : List Node) → (∀ found, Reachable found nodes → found.Kept) →
    (listOfItems? (listToJson nodes) = some nodes ↔
      ∀ found, Reachable found nodes → found.fits = false)
  | [], _ => by
      constructor
      · intro _
        exact forall_reachable_nil
      · intro _
        rfl
  | node :: rest, kept => by
      rw [← List.singleton_append, forall_reachable_append_iff] at kept ⊢
      have first := ofJson?_toJson_iff node kept.1
      have others := listOfItems?_listToJson_iff rest kept.2
      rw [← first, ← others, List.singleton_append, listToJson, listOfItems?_eq_some_iff,
        listOfItems?_eq_some_iff, List.forall₂_cons]

end

theorem numbersReadBack_attributes (node : Node) :
    ∀ entry ∈ node.attributes, ∀ value ∈ entry.2, value.NumbersReadBack := by
  cases node with
  | container kind children position => exact kind.numbersReadBack_entries
  | leaf kind position => exact kind.numbersReadBack_entries
  | unknown kind children position fields => exact List.forall_mem_nil _

/-- The numbers of the described fields have a bounded number of bits. -/
theorem numbersReadBack_toJson_of_children
    {node : Node} (extras : (Json.obj node.extras).NumbersReadBack)
    (children : ∀ nodes, node.children? = some nodes →
      (Json.arr (listToJson nodes)).NumbersReadBack) :
    node.toJson.NumbersReadBack := by
  have described : (Json.obj (Json.present node.entries)).NumbersReadBack := by
    apply Json.numbersReadBack_present
    apply forall_entries Json.NumbersReadBack (Json.numbersReadBack_str _)
      node.numbersReadBack_attributes children
    intro position _
    exact position.numbersReadBack_toJson
  rw [toJson_eq, Json.numbersReadBack_obj_iff, members, List.forall_mem_append]
  exact ⟨Json.numbersReadBack_obj_iff.mp described, Json.numbersReadBack_obj_iff.mp extras⟩

mutual

theorem numbersReadBack_toJson :
    (node : Node) →
    (∀ found, Reachable found [node] → (Json.obj found.extras).NumbersReadBack) →
    node.toJson.NumbersReadBack
  | .container kind children position, readsBack => by
      rw [forall_reachable_singleton_iff] at readsBack
      apply numbersReadBack_toJson_of_children readsBack.1
      intro nodes held
      cases held
      exact numbersReadBack_listToJson children (readsBack.2 children rfl)
  | .leaf kind position, readsBack => by
      rw [forall_reachable_singleton_iff] at readsBack
      apply numbersReadBack_toJson_of_children readsBack.1
      intro nodes held
      cases held
  | .unknown kind none position fields, readsBack => by
      rw [forall_reachable_singleton_iff] at readsBack
      apply numbersReadBack_toJson_of_children readsBack.1
      intro nodes held
      cases held
  | .unknown kind (some children) position fields, readsBack => by
      rw [forall_reachable_singleton_iff] at readsBack
      apply numbersReadBack_toJson_of_children readsBack.1
      intro nodes held
      cases held
      exact numbersReadBack_listToJson children (readsBack.2 children rfl)

theorem numbersReadBack_listToJson :
    (nodes : List Node) →
    (∀ found, Reachable found nodes → (Json.obj found.extras).NumbersReadBack) →
    (Json.arr (listToJson nodes)).NumbersReadBack
  | [], _ => Json.numbersReadBack_arr_iff.mpr (List.forall_mem_nil _)
  | node :: rest, readsBack => by
      rw [← List.singleton_append, forall_reachable_append_iff] at readsBack
      have first := numbersReadBack_toJson node readsBack.1
      have others := numbersReadBack_listToJson rest readsBack.2
      rw [Json.numbersReadBack_arr_iff] at others ⊢
      rw [listToJson, List.forall_mem_cons]
      exact ⟨first, others⟩

end

end MapBlocks.Markdown.Node
