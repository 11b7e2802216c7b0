import Mathlib.Data.List.Nodup
import MapBlocks.Json.Record
import MapBlocks.Proofs.JsonTexts

/-!
# Written records

A record is written with the fields that have a value.  If its field names are
distinct, a field is found among the written ones exactly if it has a value, and
then with that value; so a record is read back from its text field by field.
-/

namespace MapBlocks.Json

variable {fields : List (String × Option Json)}

theorem map_fst_present_sublist (fields : List (String × Option Json)) :
    ((present fields).map Prod.fst).Sublist (fields.map Prod.fst) := by
  induction fields with
  | nil => exact List.Sublist.refl _
  | cons field rest induction =>
      obtain ⟨name, value?⟩ := field
      cases value? with
      | none => exact induction.cons name
      | some value => exact induction.cons_cons name

theorem mem_present_iff {member : String × Json} :
    member ∈ present fields ↔ (member.1, some member.2) ∈ fields := by
  rw [present, List.mem_filterMap]
  constructor
  · rintro ⟨⟨name, value?⟩, listed, written⟩
    obtain ⟨value, rfl, rfl⟩ := Option.map_eq_some_iff.mp written
    exact listed
  · intro listed
    exact ⟨_, listed, rfl⟩

/-- A field is found with its value, and not at all if it has none. -/
theorem lookup?_present
    (distinct : (fields.map Prod.fst).Nodup) {key : String} {value? : Option Json}
    (member : (key, value?) ∈ fields) : lookup? key (present fields) = value? := by
  induction fields with
  | nil => cases member
  | cons field rest induction =>
      obtain ⟨name, first?⟩ := field
      rw [List.map_cons, List.nodup_cons] at distinct
      rcases List.mem_cons.mp member with same | later
      · cases same
        have absent : key ∉ (present rest).map Prod.fst := fun found =>
          distinct.1 ((map_fst_present_sublist rest).subset found)
        cases value? with
        | none => exact lookup?_eq_none_iff.mpr absent
        | some value => exact if_pos rfl
      · have known := List.mem_map_of_mem (f := Prod.fst) later
        have other : name ≠ key := fun same => distinct.1 (same ▸ known)
        have found := induction distinct.2 later
        cases first? with
        | none => exact found
        | some first => exact (if_neg other).trans found

theorem distinctKeys_of_nodup
    {α : Type} {members : List (String × α)} (distinct : (members.map Prod.fst).Nodup) :
    distinctKeys members = true := by
  induction members with
  | nil => rfl
  | cons member rest induction =>
      rw [List.map_cons, List.nodup_cons] at distinct
      rw [distinctKeys, lookup?_eq_none_iff.mpr distinct.1, induction distinct.2]
      rfl

theorem mem_of_lookup?
    {α : Type} {key : String} {value : α} {members : List (String × α)}
    (found : lookup? key members = some value) : (key, value) ∈ members := by
  induction members with
  | nil => cases found
  | cons member rest induction =>
      obtain ⟨name, first⟩ := member
      rw [lookup?] at found
      split at found
      · rename_i same
        cases same
        cases found
        exact List.mem_cons_self
      · exact List.mem_cons_of_mem _ (induction found)

theorem lookup?_map
    {α β : Type} (key : String) (change : α → β) (members : List (String × α)) :
    lookup? key (members.map fun member => (member.1, change member.2)) =
      (lookup? key members).map change := by
  induction members with
  | nil => rfl
  | cons member rest induction =>
      rw [List.map_cons, lookup?, lookup?, induction]
      split <;> rfl

theorem present_cons_some (name : String) (value : Json) (rest : List (String × Option Json)) :
    present ((name, some value) :: rest) = (name, value) :: present rest := rfl

theorem present_append (left right : List (String × Option Json)) :
    present (left ++ right) = present left ++ present right :=
  List.filterMap_append

/-- An object that repeats no field of a record is read with the members that are fields. -/
theorem record?_obj
    {names : List String} {members : List (String × Json)}
    (once : ∀ name ∈ names, (members.map Prod.fst).count name ≤ 1) :
    record? names (.obj members) =
      some (members.filter fun member => names.contains member.1) := by
  have kept : (members.filter fun member => names.contains member.1).Sublist members :=
    List.filter_sublist
  have distinct :
      ((members.filter fun member => names.contains member.1).map Prod.fst).Nodup := by
    apply List.nodup_iff_count_le_one.mpr
    intro name
    by_cases field : name ∈ names
    · exact ((kept.map Prod.fst).count_le name).trans (once name field)
    · rw [List.count_eq_zero_of_not_mem]
      · exact Nat.zero_le 1
      · intro found
        obtain ⟨member, passed, rfl⟩ := List.mem_map.mp found
        exact field (List.contains_iff_mem.mp (List.mem_filter.mp passed).2)
  exact if_pos (distinctKeys_of_nodup distinct)

/-- An object with fields of a record only, in their order, is read as it is. -/
theorem record?_obj_of_sublist
    {names : List String} {members : List (String × Json)} (distinct : names.Nodup)
    (ordered : (members.map Prod.fst).Sublist names) :
    record? names (.obj members) = some members := by
  have known : members.filter (fun member => names.contains member.1) = members := by
    apply List.filter_eq_self.mpr
    intro member found
    exact List.contains_iff_mem.mpr (ordered.subset (List.mem_map_of_mem found))
  rw [record?_obj, known]
  intro name _
  exact List.nodup_iff_count_le_one.mp (distinct.sublist ordered) name

theorem lookup?_filter
    {α : Type} {key : String} (test : String → Bool) (kept : test key = true)
    (members : List (String × α)) :
    lookup? key (members.filter fun member => test member.1) = lookup? key members := by
  induction members with
  | nil => rfl
  | cons member rest induction =>
      rw [List.filter_cons]
      split
      · rw [lookup?, lookup?, induction]
      · rename_i dropped
        have other : member.1 ≠ key := fun same => dropped (same ▸ kept)
        rw [lookup?, if_neg other, induction]

/-- A field that may be left out has a value only if it is there. -/
theorem exists_of_optional?
    {α : Type} {members : List (String × Json)} {key : String} {read : Json → Option α} {a : α}
    (field : optional? members key read = some (some a)) :
    ∃ value, lookup? key members = some value ∧ read value = some a := by
  rw [optional?] at field
  split at field
  case h_1 => cases field
  case h_2 => cases field
  case h_3 value _ found =>
    obtain ⟨_, restored, same⟩ := Option.map_eq_some_iff.mp field
    cases same
    exact ⟨value, found, restored⟩

theorem required?_of_lookup
    {α : Type} {members : List (String × Json)} {key : String} {value : Json}
    (found : lookup? key members = some value) (read : Json → Option α) :
    required? members key read = read value := by
  rw [required?, found, Option.bind_some]

theorem defaulted?_of_lookup
    {α : Type} {members : List (String × Json)} {key : String} {value : Json}
    (found : lookup? key members = some value) (default : α) (read : Json → Option α) :
    defaulted? members key default read = read value := by
  rw [defaulted?, found]

theorem optional?_of_read
    {α : Type} {members : List (String × Json)} {key : String} {value : Json} {a : α}
    (found : lookup? key members = some value) {read : Json → Option α}
    (null : read .null = none) (restored : read value = some a) :
    optional? members key read = some (some a) := by
  rw [optional?, found]
  split
  case h_1 absent => cases absent
  case h_2 same =>
    rw [Option.some.inj same, null] at restored
    cases restored
  case h_3 same => rw [← Option.some.inj same, restored, Option.map_some]

/-- A field that may be left out is read back if what is written for it is never `null`. -/
theorem optional?_of_lookup?
    {α : Type} (write : α → Json) {members : List (String × Json)} {key : String}
    {field? : Option α} (found : lookup? key members = field?.map write)
    {read : Json → Option α} (null : read .null = none)
    (restores : ∀ value ∈ field?, read (write value) = some value) :
    optional? members key read = some field? := by
  cases field? with
  | none => rw [optional?, found, Option.map_none]
  | some value => exact optional?_of_read found null (restores value rfl)

section Reading

variable (distinct : (fields.map Prod.fst).Nodup)

include distinct

/-- A written record has no member that is not a field. -/
theorem record?_present :
    record? (fields.map Prod.fst) (.obj (present fields)) = some (present fields) :=
  record?_obj_of_sublist distinct (map_fst_present_sublist fields)

theorem required?_present
    {α : Type} {key : String} {value : Json} (member : (key, some value) ∈ fields)
    (read : Json → Option α) : required? (present fields) key read = read value :=
  required?_of_lookup (lookup?_present distinct member) read

theorem record?_legible :
    record? (fields.map Prod.fst) (legible (.obj (present fields))) =
      some (legibleMembers (present fields)) := by
  rw [legible]
  apply record?_obj_of_sublist distinct
  rw [map_fst_legibleMembers]
  exact map_fst_present_sublist fields

theorem required?_legible
    {α : Type} {key : String} {value : Json} (member : (key, some value) ∈ fields)
    (read : Json → Option α) :
    required? (legibleMembers (present fields)) key read = read value.legible := by
  apply required?_of_lookup
  rw [lookup?_legibleMembers, lookup?_present distinct member, Option.map_some]

/-- A field that may be left out is read back from what was written for it. -/
theorem optional?_legible
    {α : Type} {key : String} {field? : Option α} {write : α → Json}
    (member : (key, field?.map write) ∈ fields) {read : Json → Option α}
    (null : read .null = none)
    (restores : ∀ value ∈ field?, read (write value).legible = some value) :
    optional? (legibleMembers (present fields)) key read = some field? := by
  refine optional?_of_lookup? (legible ∘ write) ?_ null restores
  rw [lookup?_legibleMembers, lookup?_present distinct member, Option.map_map]

end Reading

end MapBlocks.Json
