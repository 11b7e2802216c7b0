import MapBlocks.Proofs.NodeRecords

/-!
# Fields that fit a known kind

A node of unknown kind may have the name of a known one: its fields did not fit that
kind when it was read.  Of what made them unfit, a null and a repeated field do not
show in the node any more.  An object that has neither is read as a node of a known
kind whenever the fields that would be kept fit that kind.
-/

namespace MapBlocks.Markdown.Node

/-- Whether the other fields of a node of unknown kind fit a known kind of the same name. -/
def fits : Node → Bool
  | .unknown kind _ _ fields =>
      (Container.ofFields? kind fields).isSome || (Leaf.ofFields? kind fields).isSome
  | _ => false

theorem fits_eq_true_iff
    {kind : String} {children : Option (List Node)} {position : Option Position}
    {fields : List (String × Json)} :
    (unknown kind children position fields).fits = true ↔
      (∃ own container, Container.fieldNames? kind = some own ∧
        Container.ofFields? kind fields = some container) ∨
      ∃ own leaf, Leaf.fieldNames? kind = some own ∧ Leaf.ofFields? kind fields = some leaf := by
  rw [fits, Bool.or_eq_true, Option.isSome_iff_exists, Option.isSome_iff_exists]
  constructor
  · intro read
    rcases read with ⟨container, read⟩ | ⟨leaf, read⟩
    · cases names : Container.fieldNames? kind with
      | none => rw [Container.ofFields?_of_unnamed names] at read; cases read
      | some own => exact .inl ⟨own, container, rfl, read⟩
    · cases names : Leaf.fieldNames? kind with
      | none => rw [Leaf.ofFields?_of_unnamed names] at read; cases read
      | some own => exact .inr ⟨own, leaf, rfl, read⟩
  · intro read
    rcases read with ⟨_, container, _, read⟩ | ⟨_, leaf, _, read⟩
    · exact .inl ⟨container, read⟩
    · exact .inr ⟨leaf, read⟩

theorem fits_of_isKnown {node : Node} (known : node.isKnown = true) : node.fits = false := by
  cases node with
  | container kind children position => rfl
  | leaf kind position => rfl
  | unknown kind children position fields => cases known

theorem fits_of_unknown_name
    {node : Node} (unknown : node.typeName ∉ knownNames) : node.fits = false := by
  cases node with
  | container kind children position => rfl
  | leaf kind position => rfl
  | unknown kind children position fields =>
      apply Bool.eq_false_iff.mpr
      intro fits
      rcases fits_eq_true_iff.mp fits with ⟨_, _, names, _⟩ | ⟨_, _, names, _⟩
      · exact unknown (Container.mem_knownNames_of_fieldNames? names)
      · exact unknown (Leaf.mem_knownNames_of_fieldNames? names)

/-- An object names a known kind plainly: it gives no attribute of that kind twice,
and no null for the children of a kind that holds other nodes. -/
structure Plain (members : List (String × Json)) : Prop where
  container : ∀ name own, Json.lookup? "type" members = some (.str name) →
    Container.fieldNames? name = some own →
    (∀ key ∈ own, (members.map Prod.fst).count key ≤ 1) ∧
      Json.lookup? "children" members ≠ some .null
  leaf : ∀ name own, Json.lookup? "type" members = some (.str name) →
    Leaf.fieldNames? name = some own → ∀ key ∈ own, (members.map Prod.fst).count key ≤ 1

variable {members : List (String × Json)}

theorem plain_of_distinct
    (distinct : (members.map Prod.fst).Nodup)
    (held : Json.lookup? "children" members ≠ some .null) : Plain members := by
  have once := List.nodup_iff_count_le_one.mp distinct
  constructor
  · intro _ _ _ _
    exact ⟨fun key _ => once key, held⟩
  · intro _ _ _ _ key _
    exact once key

/-- A field that is given once is kept in canonical form. -/
theorem lookup?_kept
    {key : String} (other : key ∉ ["type", "children", "position"])
    (once : (members.map Prod.fst).count key ≤ 1) :
    Json.lookup? key (Json.sortMembers (Json.canonicalMembers (others members))) =
      (Json.lookup? key members).map Json.canonical := by
  have kept : (others members).Sublist members := List.filter_sublist
  have listed : Json.lookup? key (others members) = Json.lookup? key members :=
    Json.lookup?_filter (fun key => decide (key ∉ ["type", "children", "position"]))
      (decide_eq_true other) members
  rw [Json.lookup?_sortMembers, Json.lookup?_reverse, Json.lookup?_canonicalMembers, listed]
  rw [Json.map_fst_canonicalMembers]
  exact ((kept.map Prod.fst).count_le key).trans once

theorem map_canonical_kept
    {key : String} (other : key ∉ ["type", "children", "position"])
    (once : (members.map Prod.fst).count key ≤ 1) :
    (Json.lookup? key (Json.sortMembers (Json.canonicalMembers (others members)))).map
        Json.canonical =
      (Json.lookup? key members).map Json.canonical := by
  rw [lookup?_kept other once]
  cases Json.lookup? key members with
  | none => rfl
  | some value => exact congrArg some (Json.canonical_canonical value)

theorem knownChildren?_of_optional?
    {children? : Option (List Node)} (held : Json.lookup? "children" members ≠ some .null)
    (read : Json.optional? members "children" listOfJson? = some children?) :
    knownChildren? (memberLists members) = some (children?.getD []) := by
  rw [knownChildren?, lookup?_memberLists]
  rw [Json.optional?] at read
  split at read
  case h_1 absent =>
    cases read
    rw [absent]
    rfl
  case h_2 null => exact absurd null held
  case h_3 value _ found =>
    obtain ⟨children, listed, rfl⟩ := Option.map_eq_some_iff.mp read
    rw [found]
    exact listed

/-- A plain object is not read as a node of unknown kind whose fields fit a known one. -/
theorem isSome_knownOfMembers?
    {node : Node} (plain : Plain members)
    (read : unknownOfMembers? members (memberLists members) = some node)
    (fits : node.fits = true) :
    (knownOfMembers? members (memberLists members)).isSome = true := by
  obtain ⟨kind, children?, position, tag, onceChildren, readChildren, oncePosition, readPosition,
    rfl⟩ := unknownOfMembers?_eq_some_iff.mp read
  have typed := (valuesOf_eq_singleton_iff.mp tag).2
  rcases fits_eq_true_iff.mp fits with
    ⟨own, container, names, attributes⟩ | ⟨own, leaf, names, attributes⟩
  · obtain ⟨once, held⟩ := plain.container kind own typed names
    have again : Container.ofFields? kind members = some container := by
      rw [← attributes]
      apply Container.ofFields?_congr names
      intro key listed
      exact (map_canonical_kept (Container.not_mem_fieldNames? names key listed)
        (once key listed)).symm
    have children := knownChildren?_of_optional? held readChildren
    rw [knownOfMembers?_container tag names, again, children, readPosition]
    · rfl
    · simp only [List.forall_mem_append, List.forall_mem_cons]
      exact ⟨once, onceChildren, oncePosition, List.forall_mem_nil _⟩
  · have once := plain.leaf kind own typed names
    have again : Leaf.ofFields? kind members = some leaf := by
      rw [← attributes]
      apply Leaf.ofFields?_congr names
      intro key listed
      exact (map_canonical_kept (Leaf.not_mem_fieldNames? names key listed)
        (once key listed)).symm
    rw [knownOfMembers?_leaf tag names, again, readPosition]
    · rfl
    · simp only [List.forall_mem_append, List.forall_mem_cons]
      exact ⟨once, oncePosition, List.forall_mem_nil _⟩

end MapBlocks.Markdown.Node
