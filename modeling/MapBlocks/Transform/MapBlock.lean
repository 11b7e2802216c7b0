import MapBlocks.Render
import MapBlocks.Transform.Edit
import MapBlocks.Transform.Pipeline

/-!
# Map blocks

A transform that puts maps in place of map blocks, at every depth of a tree. A map block takes the
node after it with it if the settings say so; that node is not looked at, whatever it is.
-/

namespace MapBlocks.Transform

open Markdown (Node)

def lowerCase (text : String) : List Char := text.toList.map Char.toLower

/-- The text of a map block: a code block in the language of the settings, in whatever letter
case. -/
def mapText? (settings : Settings) : Node → Option String
  | .leaf (.code (some language) _ value) _ =>
      if lowerCase language = lowerCase settings.language then some value else none
  | _ => none

/-- The name of the transform, which its warnings bear. -/
def mapBlocksName : String := "leaflet-blocks"

/-- The warning about a map block whose text is no payload. -/
def payloadWarning (node : Node) (error : PayloadError) : String :=
  let place := match node.position? with
    | some position =>
        "map block at line " ++ String.ofList (Nat.toDigits 10 position.start.line.toNat)
    | none => "map block"
  place ++ " payload is not valid YAML: " ++ error.message

-- What the YAML reader says about a text that it cannot read.
variable (diagnose : String → String)

/-- The payload of a map block with the given text, and the context after it has been read. A text
that is no payload is warned about and counts as a payload without keys. -/
def readBlock (context : Context) (node : Node) (text : String) : Payload × Context :=
  match Payload.parse diagnose text with
  | .ok payload => (payload, context)
  | .error error => (.empty, context.warn mapBlocksName (payloadWarning node error))

/-- The nodes that take the place of a map block with the given text, and the context after its map
has been drawn. -/
def drawBlock (settings : Settings) (context : Context) (node : Node) (text : String) :
    List Node × Context :=
  let (payload, after) := readBlock diagnose context node text
  ((Map.Spec.ofPayload settings.assets payload).nodes settings.scale, after.countMap)

/-- A list of siblings that has been looked through. -/
structure Scanned where
  /-- The siblings, with maps in place of the map blocks below them. -/
  nodes : List Node
  /-- What is to be done with the map blocks among them. -/
  edits : List Edit
  context : Context

/-- The siblings after their edits. Edits that come from a scan start within the list. -/
def Scanned.apply (scanned : Scanned) : List Node × Context :=
  ((Edit.applyAll? scanned.edits scanned.nodes).getD scanned.nodes, scanned.context)

mutual

/-- Puts maps in place of the map blocks below a node. -/
def rewriteNode (settings : Settings) (context : Context) : Node → Node × Context
  | .container kind children position =>
      let (rewritten, after) := (scanSiblings settings 0 context children).apply
      (.container kind rewritten position, after)
  | .leaf kind position => (.leaf kind position, context)
  | .unknown kind children position fields =>
      let (rewritten, after) := rewriteOptional settings context children
      (.unknown kind rewritten position fields, after)

/-- Puts maps in place of the map blocks in a list of siblings, if there is one. -/
def rewriteOptional (settings : Settings) (context : Context) :
    Option (List Node) → Option (List Node) × Context
  | none => (none, context)
  | some children =>
      let (rewritten, after) := (scanSiblings settings 0 context children).apply
      (some rewritten, after)

/-- Looks through siblings, of which `index` come before the given ones. -/
def scanSiblings (settings : Settings) (index : Nat) (context : Context) : List Node → Scanned
  | [] => ⟨[], [], context⟩
  | node :: rest =>
      match mapText? settings node with
      | none =>
          let (rewritten, after) := rewriteNode settings context node
          let scanned := scanSiblings settings (index + 1) after rest
          { scanned with nodes := rewritten :: scanned.nodes }
      | some text =>
          let (replacement, after) := drawBlock diagnose settings context node text
          match rest with
          | slot :: others =>
              if settings.consumesFollowing then
                let scanned := scanSiblings settings (index + 2) after others
                { scanned with
                  nodes := node :: slot :: scanned.nodes
                  edits := ⟨index, 2, replacement⟩ :: scanned.edits }
              else
                let scanned := scanSiblings settings (index + 1) after (slot :: others)
                { scanned with
                  nodes := node :: scanned.nodes
                  edits := ⟨index, 1, replacement⟩ :: scanned.edits }
          | [] => ⟨[node], [⟨index, 1, replacement⟩], after⟩

end

/-- Puts maps in place of the map blocks in a list of siblings and below it. -/
def rewriteSiblings (settings : Settings) (context : Context) (nodes : List Node) :
    List Node × Context :=
  (scanSiblings diagnose settings 0 context nodes).apply

/-- The transform that puts maps in place of map blocks. It never fails, since a map can always be
written as JSON and put out into a string: see `MapError`. -/
def mapBlocks (settings : Settings) : Step where
  name := mapBlocksName
  run state :=
    let (children, context) :=
      rewriteSiblings diagnose settings state.context state.document.children
    (⟨state.document.withChildren children, context⟩, .ok ())

end MapBlocks.Transform
