import MapBlocks.Markdown.Node

/-!
# Reachable nodes

The nodes of a tree are those that can be reached from its siblings through their
children.  What holds of every one of them can be shown list by list.
-/

namespace MapBlocks.Transform

open Markdown (Node)

/-- A node stands among siblings, or below one of them at any depth. -/
inductive Reachable (found : Node) : List Node → Prop where
  | here {siblings : List Node} : found ∈ siblings → Reachable found siblings
  | deeper {siblings children : List Node} {parent : Node} :
      parent ∈ siblings → parent.children? = some children →
      Reachable found children → Reachable found siblings

theorem not_reachable_nil (found : Node) : ¬Reachable found [] := by
  intro reached
  cases reached with
  | here member => cases member
  | deeper member => cases member

theorem Reachable.mono {found : Node} {few many : List Node}
    (reached : Reachable found few) (subset : few ⊆ many) : Reachable found many := by
  cases reached with
  | here member => exact .here (subset member)
  | deeper member holds inside => exact .deeper (subset member) holds inside

theorem reachable_append_iff {found : Node} {left right : List Node} :
    Reachable found (left ++ right) ↔
      Reachable found left ∨ Reachable found right := by
  constructor
  · intro reached
    cases reached with
    | here member =>
        rcases List.mem_append.mp member with inLeft | inRight
        · exact .inl (.here inLeft)
        · exact .inr (.here inRight)
    | deeper member holds inside =>
        rcases List.mem_append.mp member with inLeft | inRight
        · exact .inl (.deeper inLeft holds inside)
        · exact .inr (.deeper inRight holds inside)
  · rintro (reached | reached)
    · exact reached.mono (List.subset_append_left left right)
    · exact reached.mono (List.subset_append_right left right)

theorem reachable_singleton_iff {found node : Node} :
    Reachable found [node] ↔
      found = node ∨
        ∃ children, node.children? = some children ∧ Reachable found children := by
  constructor
  · intro reached
    cases reached with
    | here member => exact .inl (List.mem_singleton.mp member)
    | deeper member holds inside =>
        cases List.mem_singleton.mp member
        exact .inr ⟨_, holds, inside⟩
  · rintro (rfl | ⟨children, holds, inside⟩)
    · exact .here List.mem_cons_self
    · exact .deeper List.mem_cons_self holds inside

section Everywhere

variable {holds : Node → Prop}

theorem forall_reachable_nil : ∀ found, Reachable found [] → holds found := by
  intro found reached
  exact (not_reachable_nil found reached).elim

theorem forall_reachable_append_iff {left right : List Node} :
    (∀ found, Reachable found (left ++ right) → holds found) ↔
      (∀ found, Reachable found left → holds found) ∧
        ∀ found, Reachable found right → holds found := by
  constructor
  · intro all
    exact ⟨fun found reached => all found (reachable_append_iff.mpr (.inl reached)),
      fun found reached => all found (reachable_append_iff.mpr (.inr reached))⟩
  · rintro ⟨left, right⟩ found reached
    rcases reachable_append_iff.mp reached with inLeft | inRight
    · exact left found inLeft
    · exact right found inRight

theorem forall_reachable_singleton_iff {node : Node} :
    (∀ found, Reachable found [node] → holds found) ↔
      holds node ∧ ∀ children, node.children? = some children →
        ∀ found, Reachable found children → holds found := by
  constructor
  · intro all
    refine ⟨all node (reachable_singleton_iff.mpr (.inl rfl)), ?_⟩
    intro children held found reached
    exact all found (reachable_singleton_iff.mpr (.inr ⟨children, held, reached⟩))
  · rintro ⟨first, below⟩ found reached
    rcases reachable_singleton_iff.mp reached with rfl | ⟨children, held, inside⟩
    · exact first
    · exact below children held found inside

theorem forall_reachable_cons_iff {node : Node} {rest : List Node} :
    (∀ found, Reachable found (node :: rest) → holds found) ↔
      (holds node ∧ ∀ children, node.children? = some children →
        ∀ found, Reachable found children → holds found) ∧
      ∀ found, Reachable found rest → holds found := by
  rw [← List.singleton_append, forall_reachable_append_iff, forall_reachable_singleton_iff]

end Everywhere

end MapBlocks.Transform
