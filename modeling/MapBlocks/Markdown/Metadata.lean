import MapBlocks.Json.Basic

/-!
# Document metadata

Values under keys, in the order in which the keys first came. Writing to a key that is there
changes its value and keeps its place.
-/

namespace MapBlocks.Markdown

/-- The data that is kept with a document. -/
structure Metadata where
  entries : List (String × Json)
  deriving Inhabited

namespace Metadata

def empty : Metadata := ⟨[]⟩

def keys (data : Metadata) : List String := data.entries.map Prod.fst

def get? (data : Metadata) (key : String) : Option Json := Json.lookup? key data.entries

/-- The value of a key, if it is a whole number from 0 to 2^64 - 1. -/
def natural? (data : Metadata) (key : String) : Option Nat := (data.get? key).bind Json.natural?

/-- Adds an entry at the end; a key that is there already moves there. -/
def append (entries : List (String × Json)) (key : String) (value : Json) : List (String × Json) :=
  (entries.filter fun (name, _) => name ≠ key) ++ [(key, value)]

theorem append_of_new
    {entries : List (String × Json)} {key : String} (new : key ∉ entries.map Prod.fst)
    (value : Json) : append entries key value = entries ++ [(key, value)] := by
  have others : entries.filter (fun entry => entry.1 ≠ key) = entries := by
    apply List.filter_eq_self.mpr
    intro entry listed
    exact decide_eq_true fun same => new (same ▸ List.mem_map_of_mem listed)
  rw [append]
  exact congrArg (· ++ [(key, value)]) others

/-- Replaces the value of a key that is there, in its place. -/
def replace (key : String) (value : Json) : List (String × Json) → List (String × Json)
  | [] => []
  | (name, old) :: rest =>
      if name = key then (name, value) :: rest else (name, old) :: replace key value rest

/-- Writes a value under a key: over the value that is there, or else as a new entry. -/
def insert (data : Metadata) (key : String) (value : Json) : Metadata :=
  match data.get? key with
  | some _ => ⟨replace key value data.entries⟩
  | none => ⟨append data.entries key value⟩

def size (data : Metadata) : Nat := data.entries.length

def isEmpty (data : Metadata) : Bool := data.entries.isEmpty

/-- Reads data from an object; of several members with one key the last counts. -/
def ofJson? : Json → Option Metadata
  | .obj members =>
      some ⟨members.foldl (fun entries (key, value) => append entries key value.canonical) []⟩
  | _ => none

/-- The data as an object, in order. -/
def toJson (data : Metadata) : Json := .obj data.entries

end Metadata

end MapBlocks.Markdown
