/-!
# JSON values

A JSON value with the members of its objects in order. `Json.canonical` is the form in which free
data is kept: at every level the keys are sorted and each key occurs once, the last one given.
-/

namespace MapBlocks

/-- A JSON number: whole numbers are kept apart from fractions. -/
inductive Json.Number where
  | int (value : Int)
  | real (value : Float)

/-- A JSON value. The members of an object are a list in the order in which they are written. -/
inductive Json where
  | null
  | bool (value : Bool)
  | num (value : Json.Number)
  | str (value : String)
  | arr (items : List Json)
  | obj (members : List (String × Json))
  deriving Inhabited

namespace Json

/-- The value of a key in a list of members, the first if it is repeated. -/
def lookup? {α : Type} (key : String) : List (String × α) → Option α
  | [] => none
  | (name, value) :: rest => if name = key then some value else lookup? key rest

theorem lookup?_eq_none_iff {α : Type} {key : String} {members : List (String × α)} :
    lookup? key members = none ↔ key ∉ members.map Prod.fst := by
  induction members with
  | nil => exact ⟨fun _ => List.not_mem_nil, fun _ => rfl⟩
  | cons member rest induction =>
      rw [lookup?, List.map_cons, List.mem_cons, not_or, ← induction]
      split
      · rename_i same
        simp [same]
      · rename_i other
        simp [Ne.symm other]

theorem lookup?_append {α : Type} (key : String) (left right : List (String × α)) :
    lookup? key (left ++ right) = (lookup? key left).or (lookup? key right) := by
  induction left with
  | nil => rfl
  | cons member rest induction =>
      rw [List.cons_append, lookup?, lookup?, induction]
      split <;> rfl

/-- Puts a member into its place among members sorted by key, over one of the same key. Keys are
compared by code points, which is also the order of their UTF-8 bytes. -/
def insertSorted {α : Type} (key : String) (value : α) : List (String × α) → List (String × α)
  | [] => [(key, value)]
  | (name, old) :: rest =>
      if key < name then (key, value) :: (name, old) :: rest
      else if key = name then (key, value) :: rest
      else (name, old) :: insertSorted key value rest

/-- The members sorted by key, of several with one key the last. -/
def sortMembers {α : Type} (members : List (String × α)) : List (String × α) :=
  members.foldl (fun sorted (key, value) => insertSorted key value sorted) []

mutual

/-- The value with the members of every object sorted by key, each key once. -/
def canonical : Json → Json
  | .arr items => .arr (canonicalItems items)
  | .obj members => .obj (sortMembers (canonicalMembers members))
  | .null => .null
  | .bool value => .bool value
  | .num value => .num value
  | .str value => .str value

def canonicalItems : List Json → List Json
  | [] => []
  | item :: rest => canonical item :: canonicalItems rest

/-- Members with canonical values, in unchanged order. -/
def canonicalMembers : List (String × Json) → List (String × Json)
  | [] => []
  | (key, value) :: rest => (key, canonical value) :: canonicalMembers rest

end

/-- The value as a whole number from 0 to 2^64 - 1. -/
def natural? : Json → Option Nat
  | .num (.int value) => if 0 ≤ value ∧ value < Nat.pow 2 64 then some value.toNat else none
  | _ => none

end Json

end MapBlocks
