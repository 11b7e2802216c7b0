import MapBlocks.Markdown.Metadata
import MapBlocks.Markdown.Node.Json

/-!
# Documents

A document is its source text, its tree and its metadata. A path of child numbers leads from the
root to a list of siblings.
-/

namespace MapBlocks.Markdown

/-- The root of a document's tree. -/
structure Root where
  children : List Node
  position : Option Position
  deriving Inhabited

structure Document where
  source : String
  tree : Root
  data : Metadata
  deriving Inhabited

namespace Root

def fieldNames : List String := ["children", "position"]

def ofJson? (value : Json) : Option Root := do
  let fields ← Json.record? fieldNames value
  let children ← Json.defaulted? fields "children" [] Node.listOfJson?
  let position ← Json.optional? fields "position" Position.ofJson?
  some ⟨children, position⟩

def toJson (root : Root) : Json :=
  .obj (Json.present
    [("children", some (.arr (Node.listToJson root.children))),
      ("position", root.position.map Position.toJson)])

end Root

/-- Why a path leads nowhere. -/
inductive PathError where
  /-- A number is past the end of its list. -/
  | noNode
  /-- A node on the way cannot hold other nodes. -/
  | noChildren
  deriving DecidableEq, Repr

/-- The list of siblings at the end of a path. -/
def siblingsAt : List Nat → List Node → Except PathError (List Node)
  | [], nodes => .ok nodes
  | index :: path, nodes =>
      match nodes[index]? with
      | none => .error .noNode
      | some node => match node.children? with
          | none => .error .noChildren
          | some children => siblingsAt path children

/-- The nodes with another list of siblings at the end of a path. -/
def replaceSiblingsAt (siblings : List Node) : List Nat → List Node → List Node
  | [], _ => siblings
  | index :: path, nodes =>
      match nodes[index]? with
      | none => nodes
      | some node => match node.children? with
          | none => nodes
          | some children =>
              nodes.set index (node.withChildren (replaceSiblingsAt siblings path children))

namespace Document

def empty : Document := ⟨"", ⟨[], none⟩, .empty⟩

/-- A document with a source and the nodes of its tree. -/
def ofNodes (source : String) (children : List Node) : Document :=
  ⟨source, ⟨children, none⟩, .empty⟩

def children (document : Document) : List Node := document.tree.children

/-- The document with other nodes at the top of its tree. -/
def withChildren (document : Document) (children : List Node) : Document :=
  ⟨document.source, ⟨children, document.tree.position⟩, document.data⟩

def fieldNames : List String := ["source", "tree", "data"]

/-- What is read of a document's JSON text: any other member, at these levels, has no meaning. -/
def outline : Json.Outline :=
  let point : Json.Outline := .record (Point.fieldNames.map fun name => (name, .whole))
  let position : Json.Outline := .record (Position.fieldNames.map fun name => (name, point))
  let tree : Json.Outline := .record [("children", .whole), ("position", position)]
  .record [("source", .whole), ("tree", tree), ("data", .whole)]

def ofJson? (value : Json) : Option Document := do
  let fields ← Json.record? fieldNames value
  let source ← Json.defaulted? fields "source" "" Json.string?
  let tree ← Json.required? fields "tree" Root.ofJson?
  let data ← Json.defaulted? fields "data" .empty Metadata.ofJson?
  some ⟨source, tree, data⟩

def toJson (document : Document) : Json :=
  .obj [("source", .str document.source), ("tree", document.tree.toJson),
    ("data", document.data.toJson)]

def ofText? (text : String) : Option Document := (Json.parseOutline? outline text).bind ofJson?

def jsonText (document : Document) : String := document.toJson.text

end Document

end MapBlocks.Markdown
