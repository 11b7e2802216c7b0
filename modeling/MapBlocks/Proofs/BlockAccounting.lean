import Mathlib.Data.List.Forall2
import MapBlocks.Proofs.OnePassRewriting

/-!
# Accounting for map blocks

`metSiblings` lists the map blocks that a scan meets, in document order.  The
context that a scan leaves behind depends on the tree only through that list: it
counts one map for each block and warns once about each block whose text is no
payload.  What the YAML reader says about a text that it cannot read is left to the
reader; a warning passes it on.
-/

namespace MapBlocks.Transform

open Markdown (Node Position)

/-- A map block that a scan meets. -/
structure MetBlock where
  text : String
  position : Option Position

mutual

/-- The map blocks that a scan meets below a node. -/
def metNode (settings : Settings) : Node → List MetBlock
  | .container _ children _ => metSiblings settings children
  | .leaf _ _ => []
  | .unknown _ children _ _ => metOptional settings children

/-- The map blocks that a scan meets among and below the children of a node that
may have none. -/
def metOptional (settings : Settings) : Option (List Node) → List MetBlock
  | none => []
  | some children => metSiblings settings children

/-- The map blocks that a scan meets among and below siblings, in document order.
A node that a block takes with it is passed over with all that is below it. -/
def metSiblings (settings : Settings) : List Node → List MetBlock
  | [] => []
  | node :: rest =>
      match mapText? settings node with
      | none => metNode settings node ++ metSiblings settings rest
      | some text =>
          ⟨text, node.position?⟩ ::
            match rest with
            | [] => []
            | slot :: others =>
                if settings.consumesFollowing then metSiblings settings others
                else metSiblings settings (slot :: others)

end

theorem metNode_eq (settings : Settings) (node : Node) :
    metNode settings node =
      match node.children? with
      | none => []
      | some children => metSiblings settings children := by
  cases node with
  | container kind children position => rfl
  | leaf kind position => rfl
  | unknown kind children position fields => cases children <;> rfl

theorem metSiblings_of_other
    {settings : Settings} {node : Node} (other : mapText? settings node = none)
    (rest : List Node) :
    metSiblings settings (node :: rest) =
      metNode settings node ++ metSiblings settings rest := by
  rw [metSiblings.eq_def]
  simp only [other]

theorem metSiblings_of_block
    {settings : Settings} {node : Node} {text : String}
    (block : mapText? settings node = some text) (rest : List Node) :
    metSiblings settings (node :: rest) =
      ⟨text, node.position?⟩ :: metSiblings settings (afterBlock settings rest) := by
  rw [metSiblings.eq_def]
  simp only [block]
  cases rest with
  | nil => simp [afterBlock, metSiblings]
  | cons slot others =>
      cases consumes : settings.consumesFollowing <;> simp [afterBlock, consumes]

namespace MetBlock

/-- How a warning names a block: by the line on which it starts, if that is known. -/
def place (block : MetBlock) : String :=
  match block.position with
  | some position =>
      "map block at line " ++ String.ofList (Nat.toDigits 10 position.start.line.toNat)
  | none => "map block"

/-- The warning about a block, if its text is no payload. -/
def warning? (diagnose : String → String) (block : MetBlock) : Option Warning :=
  match Payload.parse diagnose block.text with
  | .ok _ => none
  | .error error =>
      some ⟨mapBlocksName,
        block.place ++ " payload is not valid YAML: " ++ error.message⟩

variable (diagnose : String → String)

end MetBlock

section

variable (diagnose : String → String)

/-- The context after some map blocks. -/
def accounted (context : Context) (blocks : List MetBlock) : Context :=
  { context with
    mapsRendered := context.mapsRendered + UInt64.ofNat blocks.length
    warnings := context.warnings ++ blocks.filterMap (MetBlock.warning? diagnose) }

theorem accounted_nil (context : Context) : accounted diagnose context [] = context := by
  simp [accounted]

theorem accounted_append (context : Context) (earlier later : List MetBlock) :
    accounted diagnose context (earlier ++ later) =
      accounted diagnose (accounted diagnose context earlier) later := by
  simp [accounted, UInt64.ofNat_add, UInt64.add_assoc]

theorem drawBlock_context
    (settings : Settings) (context : Context) (node : Node) (text : String) :
    (drawBlock diagnose settings context node text).2 =
      accounted diagnose context [⟨text, node.position?⟩] := by
  cases parsed : Payload.parse diagnose text with
  | ok payload =>
      simp [drawBlock, readBlock, accounted, MetBlock.warning?, parsed, Context.countMap]
  | error error =>
      have message :
          payloadWarning node error =
            (MetBlock.mk text node.position?).place ++
              " payload is not valid YAML: " ++ error.message := rfl
      simp [drawBlock, readBlock, accounted, MetBlock.warning?, parsed, Context.countMap,
        Context.warn, message]

theorem scanSiblings_context (settings : Settings) (nodes : List Node) :
    ∀ (index : Nat) (context : Context),
      (scanSiblings diagnose settings index context nodes).context =
        accounted diagnose context (metSiblings settings nodes) := by
  induction nodes using visit_induction settings with
  | nil =>
      intro index context
      exact (accounted_nil diagnose context).symm
  | other node rest other inChildren inRest =>
      intro index context
      have below :
          (rewriteNode diagnose settings context node).2 =
            accounted diagnose context (metNode settings node) := by
        rw [rewriteNode_eq, metNode_eq]
        cases holds : node.children? with
        | none => exact (accounted_nil diagnose context).symm
        | some children => exact inChildren children holds 0 context
      simp only [scanSiblings_of_other other, metSiblings_of_other other, inRest, below,
        accounted_append]
  | block node rest text block inRest =>
      intro index context
      simp only [scanSiblings_of_block block, metSiblings_of_block block, inRest,
        drawBlock_context]
      rw [← accounted_append, List.singleton_append]

/-- What the transform does: the maps are shown, and the blocks accounted for. -/
theorem mapBlocks_run (settings : Settings) (state : State) :
    (mapBlocks diagnose settings).run state =
      (⟨state.document.withChildren (shownSiblings settings state.document.children),
        accounted diagnose state.context (metSiblings settings state.document.children)⟩,
        .ok ()) := by
  rw [← (editsShow diagnose settings state.document.children).rewriteSiblings_eq state.context,
    ← scanSiblings_context diagnose settings state.document.children 0 state.context]
  rfl

end

end MapBlocks.Transform
