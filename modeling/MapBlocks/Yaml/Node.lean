import MapBlocks.Yaml.Token

/-!
# YAML nodes

A YAML document is a tree of scalars, sequences and mappings. Anchors and aliases stand in it by
name; what an alias repeats is settled where the tree is given a meaning.
-/

namespace MapBlocks.Yaml

/-- A tag whose handle has been replaced by what it stands for. -/
structure Tag where
  base : String
  suffix : String
  deriving DecidableEq, Repr

/-- What may come before the content of a node. -/
structure Properties where
  anchor : Option String
  tag : Option Tag
  deriving DecidableEq, Repr

/-- A node of a YAML document. -/
inductive Node where
  | alias (name : String)
  | scalar (properties : Properties) (style : Style) (text : String)
  | sequence (properties : Properties) (items : List Node)
  | mapping (properties : Properties) (entries : List (Node × Node))
  deriving Inhabited

/-- The namespace of the tags that YAML itself defines. -/
def coreBase : String := "tag:yaml.org,2002:"

/-- The tag as one text. -/
def Tag.address (tag : Tag) : String := tag.base ++ tag.suffix

def Properties.none : Properties := ⟨Option.none, Option.none⟩

/-- Whether there is neither an anchor nor a tag. -/
def Properties.isEmpty (properties : Properties) : Bool :=
  properties.anchor.isNone && properties.tag.isNone

end MapBlocks.Yaml
