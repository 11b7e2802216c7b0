import MapBlocks.Yaml.Version

/-!
# YAML tokens

The layout of a YAML text becomes explicit in its tokens: indented collections have a token where
they start and one where they end, and a key has a token before it even if nothing marks it.
-/

namespace MapBlocks.Yaml

/-- How a scalar is written. -/
inductive Style where
  | plain
  | singleQuoted
  | doubleQuoted
  | literal
  | folded
  deriving DecidableEq, Repr

/-- A token of a YAML text. -/
inductive Token where
  | versionDirective (major minor : Nat)
  | tagDirective (handle expansion : List Char)
  | documentStart
  | documentEnd
  | blockSequenceStart
  | blockMappingStart
  | blockEnd
  | flowSequenceStart
  | flowSequenceEnd
  | flowMappingStart
  | flowMappingEnd
  | blockEntry
  | flowEntry
  | key
  | value
  | alias (name : List Char)
  | anchor (name : List Char)
  | tag (handle suffix : List Char)
  | scalar (style : Style) (text : List Char)
  deriving DecidableEq, Repr

end MapBlocks.Yaml
