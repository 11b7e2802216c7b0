import MapBlocks.Markdown.Position

/-!
# Markdown trees

A node holds other nodes, or is a leaf, or is of a kind that has no description here. Nodes of
the last sort keep all their fields, and their children, if they have any, are nodes again.
-/

namespace MapBlocks.Markdown

/-- The kinds of nodes that hold other nodes, with their own attributes. -/
inductive Container where
  | root
  | paragraph
  | heading (depth : UInt8)
  | blockquote
  | list (ordered : Bool) (start : Option UInt32) (spread : Bool)
  | listItem (spread : Bool) (checked : Option Bool)
  | emphasis
  | strong
  | link (url : String) (title : Option String)
  deriving DecidableEq, Repr

/-- The kinds of nodes that hold no other nodes, with their attributes. The language of a code
block is the first word of the text after its fence, `info` is the rest of that text. -/
inductive Leaf where
  | code (language : Option String) (info : Option String) (value : String)
  | html (value : String)
  | thematicBreak
  | text (value : String)
  | inlineCode (value : String)
  | image (url : String) (alt : Option String) (title : Option String)
  | hardBreak
  | frontMatter (value : String)
  deriving DecidableEq, Repr

/-- A node of a Markdown tree. -/
inductive Node where
  | container (kind : Container) (children : List Node) (position : Option Position)
  | leaf (kind : Leaf) (position : Option Position)
  /-- A node of another kind, with its other fields sorted by name. -/
  | unknown (kind : String) (children : Option (List Node)) (position : Option Position)
      (fields : List (String × Json))
  deriving Inhabited

def Container.name : Container → String
  | .root => "root"
  | .paragraph => "paragraph"
  | .heading _ => "heading"
  | .blockquote => "blockquote"
  | .list _ _ _ => "list"
  | .listItem _ _ => "listItem"
  | .emphasis => "emphasis"
  | .strong => "strong"
  | .link _ _ => "link"

def Leaf.name : Leaf → String
  | .code _ _ _ => "code"
  | .html _ => "html"
  | .thematicBreak => "thematicBreak"
  | .text _ => "text"
  | .inlineCode _ => "inlineCode"
  | .image _ _ _ => "image"
  | .hardBreak => "break"
  | .frontMatter _ => "yaml"

namespace Node

/-- A raw HTML node. Nodes that are made here, and not read from a source, have no position. -/
def html (value : String) : Node := .leaf (.html value) none

def text (value : String) : Node := .leaf (.text value) none

def code (language : Option String) (value : String) : Node :=
  .leaf (.code language none value) none

def paragraph (children : List Node) : Node := .container .paragraph children none

def blockquote (children : List Node) : Node := .container .blockquote children none

def typeName : Node → String
  | .container kind _ _ => kind.name
  | .leaf kind _ => kind.name
  | .unknown kind _ _ _ => kind

/-- Whether the node is of a kind described here. -/
def isKnown : Node → Bool
  | .unknown _ _ _ _ => false
  | _ => true

/-- The nodes that the node holds; absent if it cannot hold any. -/
def children? : Node → Option (List Node)
  | .container _ children _ => some children
  | .leaf _ _ => none
  | .unknown _ children _ _ => children

/-- The node with other children; a node that cannot hold any is left as it is. -/
def withChildren (children : List Node) : Node → Node
  | .container kind _ position => .container kind children position
  | .leaf kind position => .leaf kind position
  | .unknown kind none position fields => .unknown kind none position fields
  | .unknown kind (some _) position fields => .unknown kind (some children) position fields

theorem withChildren_of_children? (node : Node) {children : List Node}
    (holds : node.children? = some children) : node.withChildren children = node := by
  cases node with
  | container kind inner position =>
      cases holds
      rfl
  | leaf kind position => cases holds
  | unknown kind inner position fields =>
      cases holds
      rfl

def position? : Node → Option Position
  | .container _ _ position => position
  | .leaf _ position => position
  | .unknown _ _ position _ => position

end Node

end MapBlocks.Markdown
