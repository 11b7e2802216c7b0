import MapBlocks.Proofs.CanonicalJson

/-!
# Values that are the same

Two JSON values mean the same if a reader can not tell them apart that takes the
members of an object in any order, and of several members with one key the last.  A
value means the same as its canonical form.
-/

namespace MapBlocks.Json

/-- The value of a key in an object, the last if it is repeated. -/
def last? {α : Type} (key : String) (members : List (String × α)) : Option α :=
  lookup? key members.reverse

/-- Two values mean the same. -/
inductive Same : Json → Json → Prop where
  | null : Same .null .null
  | bool (value : Bool) : Same (.bool value) (.bool value)
  | num (number : Number) : Same (.num number) (.num number)
  | str (text : String) : Same (.str text) (.str text)
  | arr {items others : List Json} :
      items.length = others.length →
      (∀ (index : Nat) (item other : Json),
        items[index]? = some item → others[index]? = some other → Same item other) →
      Same (.arr items) (.arr others)
  | obj {members others : List (String × Json)} :
      (∀ key, last? key members = none ↔ last? key others = none) →
      (∀ (key : String) (value other : Json),
        last? key members = some value → last? key others = some other → Same value other) →
      Same (.obj members) (.obj others)

theorem last?_of_distinct
    {α : Type} {members : List (String × α)} (distinct : (members.map Prod.fst).Nodup)
    (key : String) : last? key members = lookup? key members :=
  lookup?_reverse (List.nodup_iff_count_le_one.mp distinct key)

theorem mem_of_last?
    {α : Type} {key : String} {value : α} {members : List (String × α)}
    (found : last? key members = some value) : (key, value) ∈ members :=
  List.mem_reverse.mp (mem_of_lookup? found)

theorem last?_canonical (key : String) (members : List (String × Json)) :
    last? key (sortMembers (canonicalMembers members)) = (last? key members).map canonical := by
  rw [last?_of_distinct (ascending_sortMembers _).nodup, lookup?_sortMembers, last?,
    ← lookup?_canonicalMembers, canonicalMembers_eq_map, canonicalMembers_eq_map,
    List.map_reverse]

/-- Items that correspond to each other make the same array. -/
theorem same_arr_of_forall₂
    {items others : List Json} (related : List.Forall₂ Same items others) :
    Same (.arr items) (.arr others) := by
  apply Same.arr related.length_eq
  intro index item other found foundOther
  obtain ⟨inside, rfl⟩ := List.getElem?_eq_some_iff.mp found
  obtain ⟨within, rfl⟩ := List.getElem?_eq_some_iff.mp foundOther
  exact related.get inside within

/-- Objects without repeated keys mean the same if they have the same keys, with values
that mean the same. -/
theorem same_obj_of_distinct
    {members others : List (String × Json)} (distinct : (members.map Prod.fst).Nodup)
    (distinctOthers : (others.map Prod.fst).Nodup)
    (related : ∀ key, Option.Rel Same (lookup? key members) (lookup? key others)) :
    Same (.obj members) (.obj others) := by
  apply Same.obj
  · intro key
    rw [last?_of_distinct distinct, last?_of_distinct distinctOthers]
    have same := related key
    generalize lookup? key members = first, lookup? key others = second at same ⊢
    cases same <;> simp
  · intro key value other found foundOther
    rw [last?_of_distinct distinct] at found
    rw [last?_of_distinct distinctOthers] at foundOther
    have same := related key
    rw [found, foundOther] at same
    cases same with
    | some same => exact same

mutual

/-- A value means the same as its canonical form. -/
theorem same_canonical : (value : Json) → Same value value.canonical
  | .null => .null
  | .bool value => .bool value
  | .num number => .num number
  | .str text => .str text
  | .arr items => by
      rw [canonical]
      exact same_arr_of_forall₂ (forall₂_canonicalItems items)
  | .obj members => by
      rw [canonical]
      apply Same.obj
      · intro key
        rw [last?_canonical, Option.map_eq_none_iff]
      · intro key value other found foundOther
        rw [last?_canonical, found, Option.map_some, Option.some.injEq] at foundOther
        rw [← foundOther]
        exact same_canonical_of_mem members _ (mem_of_last? found)

theorem forall₂_canonicalItems :
    (items : List Json) → List.Forall₂ Same items (canonicalItems items)
  | [] => .nil
  | item :: rest => .cons (same_canonical item) (forall₂_canonicalItems rest)

theorem same_canonical_of_mem :
    (members : List (String × Json)) → ∀ member ∈ members, Same member.2 member.2.canonical
  | [] => List.forall_mem_nil _
  | (_, value) :: rest => by
      rw [List.forall_mem_cons]
      exact ⟨same_canonical value, same_canonical_of_mem rest⟩

end

end MapBlocks.Json
