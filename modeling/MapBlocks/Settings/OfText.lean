import MapBlocks.Decimal.Numeral
import MapBlocks.Settings
import MapBlocks.Yaml.Node.OfTokens

/-!
# Settings as text

Settings are written in YAML, version 1.1. Every setting may be left out; an unknown or repeated
one is a fault, and so is a value of the wrong kind.
-/

namespace MapBlocks.Settings

open Yaml (Node Properties)

/-- The anchors met so far with their labels, the latest first. -/
abbrev Labels := List (String × String)

/-- The label of the next anchor: how many different names there have been. -/
def nextLabel (labels : Labels) : String :=
  String.ofList (Nat.toDigits 10 (labels.map Prod.fst).eraseDups.length)

/-- Gives the anchor of a node its label. -/
def labelAnchor (labels : Labels) (properties : Properties) : Labels × Properties :=
  match properties.anchor with
  | none => (labels, properties)
  | some name =>
      let label := nextLabel labels
      ((name, label) :: labels, ⟨some label, properties.tag⟩)

mutual

/-- The node with labels in place of the names of anchors; an unknown name is a fault. -/
def label? (labels : Labels) : Node → Option (Node × Labels)
  | .alias name => (labels.lookup name).map fun label => (.alias label, labels)
  | .scalar properties style text =>
      let (next, labelled) := labelAnchor labels properties
      some (.scalar labelled style text, next)
  | .sequence properties items =>
      let (next, labelled) := labelAnchor labels properties
      (labelItems? next items).map fun (nodes, last) => (.sequence labelled nodes, last)
  | .mapping properties entries =>
      let (next, labelled) := labelAnchor labels properties
      (labelEntries? next entries).map fun (pairs, last) => (.mapping labelled pairs, last)

def labelItems? (labels : Labels) : List Node → Option (List Node × Labels)
  | [] => some ([], labels)
  | item :: rest => do
      let (node, next) ← label? labels item
      let (nodes, last) ← labelItems? next rest
      some (node :: nodes, last)

def labelEntries? (labels : Labels) : List (Node × Node) → Option (List (Node × Node) × Labels)
  | [] => some ([], labels)
  | (key, value) :: rest => do
      let (name, next) ← label? labels key
      let (node, after) ← label? next value
      let (pairs, last) ← labelEntries? after rest
      some ((name, node) :: pairs, last)

end

/-- The properties of a node; an alias has none. -/
def propertiesOf : Node → Properties
  | .alias _ => .none
  | .scalar properties _ _ => properties
  | .sequence properties _ => properties
  | .mapping properties _ => properties

/-- The label of a node, if it has one. -/
def labelled (node : Node) : List (String × Node) :=
  match (propertiesOf node).anchor with
  | none => []
  | some label => [(label, node)]

mutual

/-- The labelled nodes of a tree, in order. -/
def anchored : Node → List (String × Node)
  | .alias name => labelled (.alias name)
  | .scalar properties style text => labelled (.scalar properties style text)
  | .sequence properties items => labelled (.sequence properties items) ++ anchoredItems items
  | .mapping properties entries => labelled (.mapping properties entries) ++ anchoredEntries entries

def anchoredItems : List Node → List (String × Node)
  | [] => []
  | item :: rest => anchored item ++ anchoredItems rest

def anchoredEntries : List (Node × Node) → List (String × Node)
  | [] => []
  | (key, value) :: rest => anchored key ++ (anchored value ++ anchoredEntries rest)

end

/-- What each label stands for; of two nodes with one label the later counts. -/
abbrev Targets := List (String × Node)

def targetsOf (node : Node) : Targets := (anchored node).reverse

/-- The node itself, or what it repeats. -/
def follow? (targets : Targets) : Node → Option Node
  | .alias label => targets.lookup label
  | node => some node

/-- A text: the text of any scalar. -/
def text? (targets : Targets) (node : Node) : Option String :=
  match follow? targets node with
  | some (.scalar _ _ text) => some text
  | _ => none

/-- The text of a scalar that may be other than a text: a plain one, or a literal one with the
tag that asks for it. -/
def typedText? (targets : Targets) (kind : String) (node : Node) : Option String :=
  match follow? targets node with
  | some (.scalar properties style text) =>
      if style = .plain
          || (style = .literal && properties.tag.any fun tag => tag.address = Yaml.coreBase ++ kind)
      then some text else none
  | _ => none

def boolean? (targets : Targets) (node : Node) : Option Bool := do
  let text ← typedText? targets "bool" node
  if ["true", "True", "TRUE"].contains text then some true
  else if ["false", "False", "FALSE"].contains text then some false
  else none

/-- The text after a plus sign, after which there must not be another sign. -/
def dropPlus? : List Char → Option (List Char)
  | '+' :: '+' :: _ => none
  | '+' :: '-' :: _ => none
  | '+' :: rest => some rest
  | text => some text

/-- The number that a text spells: a finite numeral, infinity or no number. -/
def numberOf? (text : String) : Option Float := do
  let body ← dropPlus? text.toList
  if [".inf", ".Inf", ".INF"].contains (String.ofList body) then
    some (Float.ofBits 0x7FF0000000000000)
  else if ["-.inf", "-.Inf", "-.INF"].contains text then some (Float.ofBits 0xFFF0000000000000)
  else if [".nan", ".NaN", ".NAN"].contains text then some (Float.ofBits 0x7FF8000000000000)
  else (Decimal.float? body).filter Float.isFinite

def number? (targets : Targets) (node : Node) : Option Float := do
  let text ← typedText? targets "float" node
  numberOf? text

/-- The pairs of a mapping; an empty scalar is a mapping without pairs. -/
def entries? (targets : Targets) (node : Node) : Option (List (Node × Node)) :=
  match follow? targets node with
  | some (.mapping _ entries) => some entries
  | some (.scalar _ _ "") => some []
  | _ => none

/-- The settings that a mapping gives by name, of which all must be known and none repeated. -/
def fields? (targets : Targets) (names : List String) :
    List (Node × Node) → Option (List (String × Node))
  | [] => some []
  | (key, value) :: rest => do
      let name ← text? targets key
      let fields ← fields? targets names rest
      if names.contains name && (fields.lookup name).isNone then some ((name, value) :: fields)
      else none

/-- A setting, or what is used without it. -/
def field? {α : Type} (fields : List (String × Node)) (name : String) (default : α)
    (read : Node → Option α) : Option α :=
  match fields.lookup name with
  | none => some default
  | some node => read node

def scale? (targets : Targets) (node : Node) : Option Scale := do
  let entries ← entries? targets node
  let fields ← fields? targets ["center-divisor", "zoom-factor", "bounds-divisor"] entries
  let center ← field? fields "center-divisor" Scale.default.centerDivisor (number? targets)
  let zoom ← field? fields "zoom-factor" Scale.default.zoomFactor (number? targets)
  let bounds ← field? fields "bounds-divisor" Scale.default.boundsDivisor (number? targets)
  some ⟨center, zoom, bounds⟩

/-- Reads settings from a document. -/
def ofNode? (document : Node) : Option Settings := do
  let (node, _) ← label? [] document
  let targets := targetsOf node
  let entries ← entries? targets node
  let fields ← fields? targets ["language", "asset-prefix", "consume-following", "scale"] entries
  let language ← field? fields "language" default.language (text? targets)
  let assets ← field? fields "asset-prefix" default.assets (text? targets)
  let consumes ← field? fields "consume-following" default.consumesFollowing (boolean? targets)
  let scale ← field? fields "scale" default.scale (scale? targets)
  some ⟨language, assets, consumes, scale⟩

/-- Reads settings from the documents of a text: at most one. -/
def ofDocuments? : List Node → Option Settings
  | [] => some default
  | [document] => ofNode? document
  | _ => none

/-- Reads and checks settings. A blank text leaves all settings as they are. `diagnose` is what the
YAML reader says about a text that it cannot read as settings. -/
def ofText (diagnose : String → String) (text : String) : Except MapError Settings :=
  if (Text.trim text.toList).isEmpty then .ok default
  else match (Yaml.documents? .v11 text).bind ofDocuments? with
    | none => .error (.unreadableSettings (diagnose text))
    | some settings => settings.validate.map fun _ => settings

end MapBlocks.Settings
