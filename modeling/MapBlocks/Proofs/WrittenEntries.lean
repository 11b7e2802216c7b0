import Mathlib.Data.Finset.Card
import Mathlib.Data.List.Dedup
import MapBlocks.Markdown.Metadata

/-!
# Entries of document data

Data that is written to keeps its keys apart and in their places: a new key comes
last, and a key that is there has its value replaced where it stands.  By induction
over the entries that are written, so it is with any number of them.
-/

namespace MapBlocks.Markdown.Metadata

variable {data : Metadata} {key name : String} {value : Json}

/-! ### Replaced values -/

section Replace

variable {entries : List (String × Json)}

theorem map_fst_replace (key : String) (value : Json) (entries : List (String × Json)) :
    (replace key value entries).map Prod.fst = entries.map Prod.fst := by
  fun_induction replace key value entries with
  | case1 => rfl
  | case2 old rest => rfl
  | case3 name old rest other induction => rw [List.map_cons, List.map_cons, induction]

theorem lookup?_replace_self (present : key ∈ entries.map Prod.fst) (value : Json) :
    Json.lookup? key (replace key value entries) = some value := by
  fun_induction replace key value entries with
  | case1 => cases present
  | case2 old rest => exact if_pos rfl
  | case3 name old rest other induction =>
      have later := (List.mem_cons.mp present).resolve_left (Ne.symm other)
      rw [Json.lookup?, if_neg other, induction later]

theorem lookup?_replace_of_ne (other : key ≠ name) (value : Json)
    (entries : List (String × Json)) :
    Json.lookup? name (replace key value entries) = Json.lookup? name entries := by
  fun_induction replace key value entries with
  | case1 => rfl
  | case2 old rest => rw [Json.lookup?, Json.lookup?, if_neg other, if_neg other]
  | case3 first old rest apart induction => rw [Json.lookup?, Json.lookup?, induction]

theorem filter_replace
    {keep : String × Json → Bool} (dropped : ∀ value, keep (key, value) = false) (value : Json)
    (entries : List (String × Json)) :
    (replace key value entries).filter keep = entries.filter keep := by
  fun_induction replace key value entries with
  | case1 => rfl
  | case2 old rest =>
      rw [List.filter_cons_of_neg (by simp [dropped]), List.filter_cons_of_neg (by simp [dropped])]
  | case3 first old rest apart induction => rw [List.filter_cons, List.filter_cons, induction]

theorem replace_replace (key : String) (value earlier : Json) (entries : List (String × Json)) :
    replace key value (replace key earlier entries) = replace key value entries := by
  fun_induction replace key earlier entries with
  | case1 => rfl
  | case2 old rest => rw [replace, replace, if_pos rfl, if_pos rfl]
  | case3 name old rest other induction =>
      rw [replace, replace, if_neg other, if_neg other, induction]

theorem replace_append_of_new (new : key ∉ entries.map Prod.fst) (value earlier : Json) :
    replace key value (entries ++ [(key, earlier)]) = entries ++ [(key, value)] := by
  induction entries with
  | nil => exact if_pos rfl
  | cons entry rest induction =>
      rw [List.map_cons, List.mem_cons, not_or] at new
      rw [List.cons_append, replace, if_neg (Ne.symm new.1), induction new.2, List.cons_append]

end Replace

/-! ### One entry -/

theorem insert_of_present (present : key ∈ data.keys) (value : Json) :
    data.insert key value = ⟨replace key value data.entries⟩ := by
  unfold insert
  split
  · rfl
  · rename_i none
    exact absurd present (Json.lookup?_eq_none_iff.mp none)

/-- The move of a key to the end never happens, for only a new key gets there. -/
theorem insert_of_new (new : key ∉ data.keys) (value : Json) :
    data.insert key value = ⟨data.entries ++ [(key, value)]⟩ := by
  rw [insert, get?, Json.lookup?_eq_none_iff.mpr new]
  exact congrArg Metadata.mk (append_of_new new value)

/-- A new key comes last, and the others are in their places. -/
theorem keys_insert (data : Metadata) (key : String) (value : Json) :
    (data.insert key value).keys =
      if key ∈ data.keys then data.keys else data.keys ++ [key] := by
  split
  · rename_i present
    rw [insert_of_present present, keys, map_fst_replace, keys]
  · rename_i new
    rw [insert_of_new new, keys, List.map_append, keys]
    rfl

theorem nodup_keys_insert (distinct : data.keys.Nodup) (key : String) (value : Json) :
    (data.insert key value).keys.Nodup := by
  rw [keys_insert]
  split
  · exact distinct
  · rename_i new
    exact List.concat_eq_append ▸ distinct.concat new

theorem get?_insert_self (data : Metadata) (key : String) (value : Json) :
    (data.insert key value).get? key = some value := by
  by_cases present : key ∈ data.keys
  · rw [insert_of_present present]
    exact lookup?_replace_self present value
  · rw [insert_of_new present, get?, Json.lookup?_append, Json.lookup?_eq_none_iff.mpr present]
    exact if_pos rfl

theorem get?_insert_of_ne (data : Metadata) (other : key ≠ name) (value : Json) :
    (data.insert key value).get? name = data.get? name := by
  by_cases present : key ∈ data.keys
  · rw [insert_of_present present]
    exact lookup?_replace_of_ne other value data.entries
  · rw [insert_of_new present, get?, Json.lookup?_append, Json.lookup?, if_neg other]
    exact Option.or_none

/-- The entries of other keys stay as they are. -/
theorem filter_entries_insert
    {keep : String × Json → Bool} (dropped : ∀ value, keep (key, value) = false)
    (data : Metadata) (value : Json) :
    (data.insert key value).entries.filter keep = data.entries.filter keep := by
  by_cases present : key ∈ data.keys
  · rw [insert_of_present present, filter_replace dropped]
  · rw [insert_of_new present, List.filter_append, List.filter_cons_of_neg (by simp [dropped]),
      List.filter_nil, List.append_nil]

/-- Of two values that are written under a key, the later one stays. -/
theorem insert_insert (data : Metadata) (key : String) (value earlier : Json) :
    (data.insert key earlier).insert key value = data.insert key value := by
  have written : key ∈ (data.insert key earlier).keys := by
    rw [keys_insert]
    split
    · assumption
    · exact List.mem_append_right _ List.mem_cons_self
  rw [insert_of_present written]
  by_cases present : key ∈ data.keys
  · rw [insert_of_present present, insert_of_present present, replace_replace]
  · rw [insert_of_new present, insert_of_new present, replace_append_of_new present]

/-! ### Any number of entries -/

/-- Data to which values are written under keys, one after another. -/
def insertAll (data : Metadata) (writes : List (String × Json)) : Metadata :=
  writes.foldl (fun data write => data.insert write.1 write.2) data

/-- What data becomes by what is written to it. -/
structure Records (before : Metadata) (writes : List (String × Json)) (after : Metadata) :
    Prop where
  distinct : after.keys.Nodup
  /-- New keys follow those that were there, in the order in which they first came. -/
  order : after.keys =
    before.keys ++ ((writes.map Prod.fst).filter (· ∉ before.keys)).eraseDups
  last : ∀ {earlier later : List (String × Json)} {key : String} {value : Json},
    writes = earlier ++ (key, value) :: later → key ∉ later.map Prod.fst →
      after.get? key = some value
  original : ∀ {key : String}, key ∉ writes.map Prod.fst → after.get? key = before.get? key
  size : after.size = (before.keys ++ writes.map Prod.fst).toFinset.card
  kept : after.entries.filter (·.1 ∉ writes.map Prod.fst) =
    before.entries.filter (·.1 ∉ writes.map Prod.fst)

theorem insertAll_cons (data : Metadata) (key : String) (value : Json)
    (writes : List (String × Json)) :
    data.insertAll ((key, value) :: writes) = (data.insert key value).insertAll writes := rfl

theorem nodup_keys_insertAll (distinct : data.keys.Nodup) (writes : List (String × Json)) :
    (data.insertAll writes).keys.Nodup := by
  induction writes generalizing data with
  | nil => exact distinct
  | cons write writes induction => exact induction (nodup_keys_insert distinct _ _)

theorem keys_insertAll (data : Metadata) (writes : List (String × Json)) :
    (data.insertAll writes).keys =
      data.keys ++ ((writes.map Prod.fst).filter (· ∉ data.keys)).eraseDups := by
  induction writes generalizing data with
  | nil => simp [insertAll]
  | cons write writes induction =>
      obtain ⟨key, value⟩ := write
      rw [insertAll_cons, induction, keys_insert, List.map_cons]
      split
      · rename_i present
        rw [List.filter_cons_of_neg (by simpa using present)]
      · rename_i new
        rw [List.filter_cons_of_pos (by simpa using new), List.eraseDups_cons, List.append_assoc,
          List.singleton_append, List.filter_filter]
        simp only [List.mem_append, List.mem_singleton, not_or, Bool.decide_and, Bool.and_comm,
          decide_not, Bool.beq_eq_decide_eq]

theorem get?_insertAll_of_not_mem {writes : List (String × Json)}
    (absent : key ∉ writes.map Prod.fst) (data : Metadata) :
    (data.insertAll writes).get? key = data.get? key := by
  induction writes generalizing data with
  | nil => rfl
  | cons write writes induction =>
      rw [List.map_cons, List.mem_cons, not_or] at absent
      rw [insertAll_cons, induction absent.2, get?_insert_of_ne data (Ne.symm absent.1)]

theorem get?_insertAll_of_last {earlier later : List (String × Json)}
    (last : key ∉ later.map Prod.fst) (data : Metadata) :
    (data.insertAll (earlier ++ (key, value) :: later)).get? key = some value := by
  rw [insertAll, List.foldl_append, List.foldl_cons, ← insertAll, ← insertAll,
    get?_insertAll_of_not_mem last, get?_insert_self]

theorem filter_entries_insertAll
    {keep : String × Json → Bool} {writes : List (String × Json)}
    (dropped : ∀ write ∈ writes, ∀ value, keep (write.1, value) = false) (data : Metadata) :
    (data.insertAll writes).entries.filter keep = data.entries.filter keep := by
  induction writes generalizing data with
  | nil => rfl
  | cons write writes induction =>
      rw [List.forall_mem_cons] at dropped
      rw [insertAll_cons, induction dropped.2, filter_entries_insert dropped.1]

/-- Data with distinct keys records what is written to it. -/
theorem records_insertAll (distinct : data.keys.Nodup) (writes : List (String × Json)) :
    data.Records writes (data.insertAll writes) where
  distinct := nodup_keys_insertAll distinct writes
  order := keys_insertAll data writes
  last := by
    rintro earlier later key value rfl last
    exact get?_insertAll_of_last last data
  original absent := get?_insertAll_of_not_mem absent data
  size := by
    have length : (data.insertAll writes).size = (data.insertAll writes).keys.length :=
      (List.length_map _).symm
    rw [length, ← List.toFinset_card_of_nodup (nodup_keys_insertAll distinct writes),
      keys_insertAll]
    congr 1
    ext key
    simp only [List.mem_toFinset, List.mem_append, List.mem_eraseDups, List.mem_filter,
      decide_eq_true_eq]
    tauto
  kept := by
    apply filter_entries_insertAll
    intro write member value
    have written : write.1 ∈ writes.map Prod.fst := List.mem_map_of_mem member
    exact decide_eq_false (not_not_intro written)

/-- Two keys, of which one is written twice with a new key in between. -/
theorem records_rewritten_entry :
    let data : Metadata := ⟨[("a", .bool true), ("b", .null)]⟩
    let writes : List (String × Json) := [("a", .null), ("c", .null), ("a", .bool false)]
    data.keys.Nodup ∧ data.Records writes (data.insertAll writes) ∧
      data.insertAll writes = ⟨[("a", .bool false), ("b", .null), ("c", .null)]⟩ := by
  intro data writes
  have distinct : data.keys.Nodup := by decide
  exact ⟨distinct, records_insertAll distinct writes, rfl⟩

end MapBlocks.Markdown.Metadata
