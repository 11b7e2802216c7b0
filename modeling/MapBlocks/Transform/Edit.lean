import MapBlocks.Markdown.Node

/-!
# Edits of sibling lists

An edit replaces some neighbouring nodes of a list by others. Edits are applied from the last to
the first, so that the places of the earlier ones stay what they were.
-/

namespace MapBlocks.Transform

open Markdown (Node)

/-- A replacement of neighbouring nodes. -/
structure Edit where
  /-- How many nodes come before those that are replaced. -/
  index : Nat
  /-- How many nodes are replaced; the end of the list may cut them short. -/
  consumed : Nat
  replacement : List Node

namespace Edit

/-- How many nodes come before those that are left, if the list is long enough. -/
def stop (edit : Edit) : Nat := edit.index + edit.consumed

/-- Whether the end of an edit can be told, in a list of the given length: past the end of the list
it is still counted, in 64 bits. -/
def hasEnd (edit : Edit) (length : Nat) : Bool :=
  edit.stop ≤ length || edit.stop < Nat.pow 2 64

/-- Applies one edit, which must not start past the end of the list. -/
def applyTo? (edit : Edit) (nodes : List Node) : Option (List Node) :=
  if edit.index ≤ nodes.length ∧ edit.hasEnd nodes.length then
    some (nodes.take edit.index ++ (edit.replacement ++ nodes.drop edit.stop))
  else none

theorem applyTo?_append (before removed after replacement : List Node) :
    applyTo? ⟨before.length, removed.length, replacement⟩ (before ++ (removed ++ after)) =
      some (before ++ (replacement ++ after)) := by
  simp [applyTo?, hasEnd, stop]

/-- Applies edits, the last one first. -/
def applyAll? (edits : List Edit) (nodes : List Node) : Option (List Node) :=
  match edits with
  | [] => some nodes
  | edit :: rest => (applyAll? rest nodes).bind edit.applyTo?

end Edit

end MapBlocks.Transform
