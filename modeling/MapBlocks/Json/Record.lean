import MapBlocks.Json.Basic

/-!
# Records in JSON

A record has named fields. It is written as an object, in which members of other names have no
meaning, or as an array of its fields in order, in which fields at the end may be left out.
-/

namespace MapBlocks.Json

/-- Whether no key is repeated. -/
def distinctKeys {α : Type} : List (String × α) → Bool
  | [] => true
  | (key, _) :: rest => (lookup? key rest).isNone && distinctKeys rest

/-- The fields of a record with the given field names; a repeated field is a fault. -/
def record? (names : List String) : Json → Option (List (String × Json))
  | .obj members =>
      let known := members.filter fun (key, _) => names.contains key
      if distinctKeys known then some known else none
  | .arr items => if items.length ≤ names.length then some (names.zip items) else none
  | _ => none

/-- A field that must be there. -/
def required? {α : Type} (fields : List (String × Json)) (name : String) (read : Json → Option α) :
    Option α :=
  (lookup? name fields).bind read

/-- A field that has a value of its own when it is left out. -/
def defaulted? {α : Type} (fields : List (String × Json)) (name : String) (default : α)
    (read : Json → Option α) : Option α :=
  match lookup? name fields with
  | none => some default
  | some value => read value

/-- A field that may be left out or be `null`. -/
def optional? {α : Type} (fields : List (String × Json)) (name : String) (read : Json → Option α) :
    Option (Option α) :=
  match lookup? name fields with
  | none => some none
  | some .null => some none
  | some value => (read value).map some

def string? : Json → Option String
  | .str value => some value
  | _ => none

def boolean? : Json → Option Bool
  | .bool value => some value
  | _ => none

def below? (limit : Nat) : Json → Option Nat
  | .num (.int value) => if 0 ≤ value ∧ value < limit then some value.toNat else none
  | _ => none

/-- The fields of a written record: those that are there, in order. -/
def present (fields : List (String × Option Json)) : List (String × Json) :=
  fields.filterMap fun (name, value?) => value?.map fun value => (name, value)

end MapBlocks.Json
