import MapBlocks.Yaml.Node.OfTokens
import MapBlocks.Yaml.Value

/-!
# From nodes to values

Aliases are replaced by what they repeat, scalars are given their kinds, and a repeated key of a
mapping is found.
-/

namespace MapBlocks.Yaml

/-- The anchors of a document met so far. An anchor may be set again; an alias means the one set
last before it. -/
structure Anchors where
  /-- The number of the anchor that each name means, the latest first. -/
  numbers : List (String × Nat)
  /-- The value at each anchor whose node is complete. -/
  values : List (Nat × Value)
  /-- How many anchors there have been. -/
  count : Nat

namespace Anchors

def empty : Anchors := ⟨[], [], 0⟩

/-- Meets the anchor of a node, if it has one; gives its number too. -/
def enter (anchors : Anchors) : Option String → Anchors × Option Nat
  | none => (anchors, none)
  | some name =>
      (⟨(name, anchors.count) :: anchors.numbers, anchors.values, anchors.count + 1⟩,
        some anchors.count)

/-- Sets the value of an anchor whose node is complete. -/
def complete (anchors : Anchors) (number? : Option Nat) (value : Value) : Anchors :=
  match number? with
  | none => anchors
  | some number => { anchors with values := (number, value) :: anchors.values }

/-- What an alias repeats. An unknown name is a fault, and inside of the node that it names an
alias has no value. -/
def value? (anchors : Anchors) (name : String) : Option Value :=
  (anchors.numbers.lookup name).map fun number => (anchors.values.lookup number).getD .bad

end Anchors

/-- A mapping that is being read. -/
structure Pairing where
  /-- A key that still lacks its value. -/
  pending : Option Value
  /-- The complete pairs, in reverse. -/
  entries : List (Value × Value)

/-- Takes up a key or value. A bad value never becomes a key, so that the one after it does; a
repeated key is a fault. -/
def Pairing.add? (pairing : Pairing) (value : Value) : Option Pairing :=
  match pairing.pending, value with
  | none, .bad => some pairing
  | none, value => some { pairing with pending := some value }
  | some key, value =>
      if pairing.entries.any fun (name, _) => name.same key then none
      else some ⟨none, (key, value) :: pairing.entries⟩

/-- The value of a scalar with its tag and style. -/
def Value.ofScalar (properties : Properties) (style : Style) (text : String) : Value :=
  if style ≠ .plain then .str text
  else match properties.tag with
    | none => .ofPlain text
    | some tag => if tag.base = coreBase then .ofCore tag.suffix text else .str text

namespace Value

mutual

/-- The value of a node, with the anchors met in it. -/
def ofNode? (anchors : Anchors) : Node → Option (Value × Anchors)
  | .alias name => (anchors.value? name).map fun value => (value, anchors)
  | .scalar properties style text =>
      let (entered, number?) := anchors.enter properties.anchor
      let value := ofScalar properties style text
      some (value, entered.complete number? value)
  | .sequence properties items =>
      let (entered, number?) := anchors.enter properties.anchor
      (ofItems? entered items).map fun (values, after) =>
        (.seq values, after.complete number? (.seq values))
  | .mapping properties entries =>
      let (entered, number?) := anchors.enter properties.anchor
      (ofEntries? entered ⟨none, []⟩ entries).map fun (pairs, after) =>
        (.map pairs, after.complete number? (.map pairs))

def ofItems? (anchors : Anchors) : List Node → Option (List Value × Anchors)
  | [] => some ([], anchors)
  | item :: rest => do
      let (value, next) ← ofNode? anchors item
      let (values, last) ← ofItems? next rest
      some (value :: values, last)

def ofEntries? (anchors : Anchors) (pairing : Pairing) :
    List (Node × Node) → Option (List (Value × Value) × Anchors)
  | [] => some (pairing.entries.reverse, anchors)
  | (key, item) :: rest => do
      let (name, next) ← ofNode? anchors key
      let keyed ← pairing.add? name
      let (value, last) ← ofNode? next item
      let paired ← keyed.add? value
      ofEntries? last paired rest

end

/-- The values of the documents of a text of version 1.2. -/
def documents? (text : String) : Option (List Value) := do
  let nodes ← Yaml.documents? .v12 text
  nodes.mapM fun node => (ofNode? .empty node).map Prod.fst

end Value

end MapBlocks.Yaml
