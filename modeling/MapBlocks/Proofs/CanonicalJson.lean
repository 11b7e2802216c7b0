import Mathlib.Data.String.Basic
import MapBlocks.Proofs.WrittenRecords

/-!
# Canonical values

The members of a canonical object ascend by their keys.  Bringing a value into
canonical form changes nothing that a reader could tell apart: each key keeps its
value, and what is canonical already stays as it is.
-/

namespace MapBlocks.Json

section Members

variable {α : Type}

/-- The keys of members ascend, so that no key is repeated. -/
def Ascending (members : List (String × α)) : Prop :=
  members.Pairwise fun earlier later => earlier.1 < later.1

theorem ascending_iff {members : List (String × α)} :
    Ascending members ↔ (members.map Prod.fst).Pairwise (· < ·) := List.pairwise_map.symm

theorem Ascending.nodup {members : List (String × α)} (ascending : Ascending members) :
    (members.map Prod.fst).Nodup := (ascending_iff.mp ascending).imp ne_of_lt

theorem mem_of_mem_insertSorted
    {key : String} {value : α} {members : List (String × α)} {member : String × α}
    (found : member ∈ insertSorted key value members) :
    member = (key, value) ∨ member ∈ members := by
  induction members with
  | nil => exact .inl (List.mem_singleton.mp found)
  | cons first rest induction =>
      obtain ⟨name, old⟩ := first
      rw [insertSorted] at found
      split at found
      · exact List.mem_cons.mp found
      · split at found
        · rcases List.mem_cons.mp found with same | later
          · exact .inl same
          · exact .inr (List.mem_cons_of_mem _ later)
        · rcases List.mem_cons.mp found with same | later
          · exact .inr (same ▸ List.mem_cons_self)
          · rcases induction later with same | listed
            · exact .inl same
            · exact .inr (List.mem_cons_of_mem _ listed)

theorem ascending_insertSorted
    (key : String) (value : α) {members : List (String × α)} (ascending : Ascending members) :
    Ascending (insertSorted key value members) := by
  induction members with
  | nil => exact List.pairwise_singleton _ _
  | cons first rest induction =>
      obtain ⟨name, old⟩ := first
      obtain ⟨least, others⟩ := List.pairwise_cons.mp ascending
      rw [insertSorted]
      split
      · rename_i smaller
        apply List.pairwise_cons.mpr
        refine ⟨fun member found => ?_, ascending⟩
        rcases List.mem_cons.mp found with rfl | later
        · exact smaller
        · exact lt_trans smaller (least member later)
      · split
        · rename_i same
          subst same
          exact List.pairwise_cons.mpr ⟨least, others⟩
        · rename_i notSmaller different
          apply List.pairwise_cons.mpr
          refine ⟨fun member found => ?_, induction others⟩
          rcases mem_of_mem_insertSorted found with rfl | later
          · exact lt_of_le_of_ne (not_lt.mp notSmaller) (Ne.symm different)
          · exact least member later

theorem insertSorted_of_greater
    {key : String} (value : α) {members : List (String × α)}
    (greater : ∀ member ∈ members, member.1 < key) :
    insertSorted key value members = members ++ [(key, value)] := by
  induction members with
  | nil => rfl
  | cons first rest induction =>
      obtain ⟨name, old⟩ := first
      rw [List.forall_mem_cons] at greater
      rw [insertSorted, if_neg (lt_asymm greater.1), if_neg (ne_of_gt greater.1),
        induction greater.2, List.cons_append]

theorem lookup?_insertSorted (key name : String) (value : α) (members : List (String × α)) :
    lookup? key (insertSorted name value members) =
      if name = key then some value else lookup? key members := by
  induction members with
  | nil => rfl
  | cons first rest induction =>
      obtain ⟨other, old⟩ := first
      rw [insertSorted]
      split
      · rw [lookup?]
      · split
        · rename_i same
          subst same
          rw [lookup?, lookup?]
          split <;> rfl
        · rename_i different
          rw [lookup?, lookup?, induction]
          by_cases first : other = key
          · rw [if_pos first, if_pos first, if_neg fun same => different (same.trans first.symm)]
          · rw [if_neg first, if_neg first]

theorem sortMembers_induction
    {motive : List (String × α) → Prop} {members : List (String × α)} (nil : motive [])
    (insert : ∀ key value sorted, (key, value) ∈ members → motive sorted →
      motive (insertSorted key value sorted)) : motive (sortMembers members) := by
  rw [sortMembers]
  generalize ([] : List (String × α)) = sorted at nil
  induction members generalizing sorted with
  | nil => exact nil
  | cons first rest induction =>
      apply induction
      · intro key value sorted listed
        exact insert key value sorted (List.mem_cons_of_mem _ listed)
      · exact insert _ _ _ List.mem_cons_self nil

theorem ascending_sortMembers (members : List (String × α)) : Ascending (sortMembers members) :=
  sortMembers_induction List.Pairwise.nil fun key value _ _ sorted =>
    ascending_insertSorted key value sorted

theorem mem_of_mem_sortMembers {members : List (String × α)} :
    ∀ member ∈ sortMembers members, member ∈ members := by
  apply sortMembers_induction (motive := fun sorted => ∀ member ∈ sorted, member ∈ members)
  · intro member found
    cases found
  · intro key value sorted listed all member found
    rcases mem_of_mem_insertSorted found with rfl | earlier
    · exact listed
    · exact all member earlier

/-- Sorted members stay as they are. -/
theorem sortMembers_of_ascending
    {members : List (String × α)} (ascending : Ascending members) :
    sortMembers members = members := by
  have collected : ∀ sorted : List (String × α), Ascending (sorted ++ members) →
      members.foldl (fun sorted member => insertSorted member.1 member.2 sorted) sorted =
        sorted ++ members := by
    clear ascending
    induction members with
    | nil => intro sorted _; rw [List.append_nil, List.foldl_nil]
    | cons first rest induction =>
        intro sorted ascending
        obtain ⟨key, value⟩ := first
        have greater : ∀ member ∈ sorted, member.1 < key := fun member found =>
          (List.pairwise_append.mp ascending).2.2 member found (key, value) List.mem_cons_self
        have shifted : sorted ++ [(key, value)] ++ rest = sorted ++ (key, value) :: rest := by
          rw [List.append_assoc, List.singleton_append]
        have step : insertSorted key value sorted = sorted ++ [(key, value)] :=
          insertSorted_of_greater value greater
        change rest.foldl _ (insertSorted key value sorted) = _
        rw [step, induction _ (shifted ▸ ascending), shifted]
  exact collected [] ascending

/-- Of several members with one key the last counts. -/
theorem lookup?_sortMembers (key : String) (members : List (String × α)) :
    lookup? key (sortMembers members) = lookup? key members.reverse := by
  have collected : ∀ sorted : List (String × α),
      lookup? key (members.foldl (fun sorted member => insertSorted member.1 member.2 sorted)
        sorted) = (lookup? key members.reverse).or (lookup? key sorted) := by
    induction members with
    | nil => intro sorted; rfl
    | cons first rest induction =>
        intro sorted
        obtain ⟨name, value⟩ := first
        rw [List.foldl_cons, induction, lookup?_insertSorted, List.reverse_cons, lookup?_append,
          Option.or_assoc, lookup?, lookup?]
        split <;> rfl
  have whole := collected []
  rw [lookup?, Option.or_none] at whole
  exact whole

theorem lookup?_reverse
    {key : String} {members : List (String × α)} (once : (members.map Prod.fst).count key ≤ 1) :
    lookup? key members.reverse = lookup? key members := by
  induction members with
  | nil => rfl
  | cons first rest induction =>
      rw [List.reverse_cons, lookup?_append, lookup?, lookup?, lookup?]
      by_cases same : first.1 = key
      · have unlisted : key ∉ rest.reverse.map Prod.fst := by
          rw [List.map_cons, same, List.count_cons_self] at once
          rw [List.map_reverse, List.mem_reverse]
          exact List.count_eq_zero.mp (Nat.le_zero.mp (Nat.le_of_succ_le_succ once))
        rw [if_pos same, if_pos same, lookup?_eq_none_iff.mpr unlisted, Option.none_or]
      · rw [List.map_cons, List.count_cons_of_ne same] at once
        rw [if_neg same, if_neg same, Option.or_none, induction once]

end Members

theorem canonicalMembers_eq_map (members : List (String × Json)) :
    canonicalMembers members = members.map fun member => (member.1, member.2.canonical) := by
  induction members with
  | nil => rfl
  | cons member rest induction => rw [canonicalMembers, induction, List.map_cons]

theorem map_fst_canonicalMembers (members : List (String × Json)) :
    (canonicalMembers members).map Prod.fst = members.map Prod.fst := by
  rw [canonicalMembers_eq_map, List.map_map]
  rfl

theorem lookup?_canonicalMembers (key : String) (members : List (String × Json)) :
    lookup? key (canonicalMembers members) = (lookup? key members).map canonical := by
  rw [canonicalMembers_eq_map, lookup?_map]

theorem canonicalMembers_of_canonical
    {members : List (String × Json)}
    (canonicals : ∀ member ∈ members, member.2.canonical = member.2) :
    canonicalMembers members = members := by
  induction members with
  | nil => rfl
  | cons member rest induction =>
      obtain ⟨key, value⟩ := member
      rw [List.forall_mem_cons] at canonicals
      rw [canonicalMembers, canonicals.1, induction canonicals.2]

theorem canonical_obj
    {members : List (String × Json)} (ascending : Ascending members)
    (canonicals : ∀ member ∈ members, member.2.canonical = member.2) :
    (Json.obj members).canonical = .obj members := by
  rw [canonical, canonicalMembers_of_canonical canonicals, sortMembers_of_ascending ascending]

mutual

theorem canonical_canonical : (value : Json) → value.canonical.canonical = value.canonical
  | .null => rfl
  | .bool _ => rfl
  | .num _ => rfl
  | .str _ => rfl
  | .arr items => by
      rw [canonical, canonical, arr.injEq, canonicalItems_canonicalItems items]
  | .obj members => by
      rw [canonical]
      apply canonical_obj (ascending_sortMembers _)
      intro member found
      exact canonical_of_mem_canonicalMembers members member (mem_of_mem_sortMembers member found)

theorem canonicalItems_canonicalItems :
    (items : List Json) → canonicalItems (canonicalItems items) = canonicalItems items
  | [] => rfl
  | item :: rest => by
      rw [canonicalItems, canonicalItems, canonical_canonical item,
        canonicalItems_canonicalItems rest]

theorem canonical_of_mem_canonicalMembers :
    (members : List (String × Json)) → ∀ member ∈ canonicalMembers members,
      member.2.canonical = member.2
  | [] => fun member found => absurd found List.not_mem_nil
  | (key, value) :: rest => by
      rw [canonicalMembers, List.forall_mem_cons]
      exact ⟨canonical_canonical value, canonical_of_mem_canonicalMembers rest⟩

end

/-- The members of a canonical object ascend, and their values are canonical. -/
theorem canonical_obj_iff {members : List (String × Json)} :
    (Json.obj members).canonical = .obj members ↔
      Ascending members ∧ ∀ member ∈ members, member.2.canonical = member.2 := by
  constructor
  · intro same
    rw [canonical, obj.injEq] at same
    have ascending : Ascending members := same ▸ ascending_sortMembers _
    have keys : Ascending (canonicalMembers members) := by
      rw [ascending_iff, map_fst_canonicalMembers]
      exact ascending_iff.mp ascending
    have values : canonicalMembers members = members := by
      rw [← sortMembers_of_ascending keys, same]
    refine ⟨ascending, fun member listed => ?_⟩
    exact canonical_of_mem_canonicalMembers members member (values.symm ▸ listed)
  · rintro ⟨ascending, canonicals⟩
    exact canonical_obj ascending canonicals

end MapBlocks.Json
