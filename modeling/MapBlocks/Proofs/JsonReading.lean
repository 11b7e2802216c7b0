import MapBlocks.Proofs.WrittenRecords

/-!
# Written values and the limits of the reader

The reader rounds numerals in its own way, limits how deep arrays and objects are
nested, and passes over the members that its outline does not name.  So a value
whose numbers read back from their texts reads back from its text as a whole,
exactly if it is not nested too deep.
-/

namespace MapBlocks.Json

mutual

/-- How deep arrays and objects are nested in a value. -/
def nesting : Json → Nat
  | .null => 0
  | .bool _ => 0
  | .num _ => 0
  | .str _ => 0
  | .arr items => nestingOfItems items + 1
  | .obj members => nestingOfMembers members + 1

def nestingOfItems : List Json → Nat
  | [] => 0
  | item :: rest => max (nesting item) (nestingOfItems rest)

def nestingOfMembers : List (String × Json) → Nat
  | [] => 0
  | (_, value) :: rest => max (nesting value) (nestingOfMembers rest)

end

mutual

/-- The numbers in a value, at any depth. -/
def numbers : Json → List Number
  | .null => []
  | .bool _ => []
  | .num number => [number]
  | .str _ => []
  | .arr items => numbersOfItems items
  | .obj members => numbersOfMembers members

def numbersOfItems : List Json → List Number
  | [] => []
  | item :: rest => numbers item ++ numbersOfItems rest

def numbersOfMembers : List (String × Json) → List Number
  | [] => []
  | (_, value) :: rest => numbers value ++ numbersOfMembers rest

end

/-- The reader takes the text of a number for that number. -/
def Number.ReadsBack (number : Number) : Prop :=
  parse? (Json.num number).text = some (.num number)

/-- The reader takes the text of each number in a value for that number. -/
def NumbersReadBack (value : Json) : Prop := ∀ number ∈ value.numbers, number.ReadsBack

theorem mem_numbersOfItems
    {items : List Json} {number : Number} :
    number ∈ numbersOfItems items ↔ ∃ item ∈ items, number ∈ item.numbers := by
  induction items with
  | nil => simp [numbersOfItems]
  | cons item rest induction => simp [numbersOfItems, induction]

theorem mem_numbersOfMembers
    {members : List (String × Json)} {number : Number} :
    number ∈ numbersOfMembers members ↔ ∃ member ∈ members, number ∈ member.2.numbers := by
  induction members with
  | nil => simp [numbersOfMembers]
  | cons member rest induction => simp [numbersOfMembers, induction]

theorem numbersReadBack_arr_iff {items : List Json} :
    NumbersReadBack (.arr items) ↔ ∀ item ∈ items, item.NumbersReadBack := by
  simp only [NumbersReadBack, numbers, mem_numbersOfItems]
  constructor
  · intro all item listed number found
    exact all number ⟨item, listed, found⟩
  · rintro all number ⟨item, listed, found⟩
    exact all item listed number found

theorem numbersReadBack_obj_iff {members : List (String × Json)} :
    NumbersReadBack (.obj members) ↔ ∀ member ∈ members, member.2.NumbersReadBack := by
  simp only [NumbersReadBack, numbers, mem_numbersOfMembers]
  constructor
  · intro all member listed number found
    exact all number ⟨member, listed, found⟩
  · rintro all number ⟨member, listed, found⟩
    exact all member listed number found

theorem numbersReadBack_str (text : String) : NumbersReadBack (.str text) :=
  fun _ found => absurd found List.not_mem_nil

theorem numbersReadBack_bool (value : Bool) : NumbersReadBack (.bool value) :=
  fun _ found => absurd found List.not_mem_nil

theorem numbersReadBack_num_iff {number : Number} :
    NumbersReadBack (.num number) ↔ number.ReadsBack := by
  simp [NumbersReadBack, numbers]

theorem numbersReadBack_of_mem_map
    {α : Type} {field? : Option α} {write : α → Json}
    (readsBack : ∀ value, (write value).NumbersReadBack) :
    ∀ written ∈ field?.map write, written.NumbersReadBack := by
  intro written found
  obtain ⟨value, -, rfl⟩ := Option.map_eq_some_iff.mp found
  exact readsBack value

theorem numbersReadBack_present
    (fields : List (String × Option Json))
    (readsBack : ∀ field ∈ fields, ∀ value ∈ field.2, value.NumbersReadBack) :
    NumbersReadBack (.obj (present fields)) := by
  apply numbersReadBack_obj_iff.mpr
  intro member written
  exact readsBack _ (mem_present_iff.mp written) _ rfl

theorem parseOutline?_text (outline : Outline) (value : Json) :
    parseOutline? outline value.text = value.written.value? outline depthLimit := by
  rw [parseOutline?, text, String.toList_ofList, Written.parse?_render, Option.bind_some]

theorem Number.readsBack_iff {number : Number} :
    number.ReadsBack ↔ number.numeral?.bind Numeral.number? = some number := by
  rw [ReadsBack, parse?, parseOutline?_text, written]
  cases number.numeral? with
  | none => simp [Written.value?]
  | some numeral => simp [Written.value?]

/-- Whole numbers of 64 bits, with or without a sign, are read as they were written. -/
theorem Number.readsBack_int
    {value : ℤ} (least : -2 ^ 63 ≤ value) (greatest : value < 2 ^ 64) :
    ReadsBack (.int value) := by
  apply readsBack_iff.mpr
  change Numeral.number? ⟨value < 0, Decimal.digitsOf value.natAbs, [], none⟩ = _
  rw [Numeral.number?, Numeral.int?]
  simp only [Decimal.valueOf_digitsOf, List.isEmpty_nil, Option.isNone_none, Bool.and_self,
    if_true, decide_eq_true_eq, Nat.pow_eq]
  by_cases negative : value < 0
  · have small : 0 < value.natAbs ∧ value.natAbs ≤ 2 ^ 63 := by omega
    have sign : -(value.natAbs : ℤ) = value := by omega
    rw [if_pos negative, if_pos small, sign]
  · have small : value.natAbs < 2 ^ 64 := by omega
    have sign : (value.natAbs : ℤ) = value := by omega
    rw [if_neg negative, if_pos small, sign]

mutual

theorem value?_written :
    (value : Json) → {depth : Nat} → value.nesting ≤ depth → value.NumbersReadBack →
    value.written.value? .whole depth = some value
  | .null, _, _, _ => by rw [written, Written.value?]
  | .bool value, _, _, _ => by rw [written, Written.value?]
  | .num number, depth, _, readsBack => by
      have read := Number.readsBack_iff.mp (numbersReadBack_num_iff.mp readsBack)
      obtain ⟨numeral, spelled, same⟩ := Option.bind_eq_some_iff.mp read
      rw [written, spelled, Option.map_some, Option.getD_some, Written.value?, same,
        Option.map_some]
  | .str text, _, _, _ => by
      rw [written, Written.value?, textOf?_writtenPieces, Option.map_some, String.ofList_toList]
  | .arr items, depth, nested, readsBack => by
      rw [nesting] at nested
      obtain ⟨inner, rfl⟩ := Nat.exists_eq_add_one.mpr (Nat.lt_of_lt_of_le (by omega) nested)
      have read := itemValues?_writtenItems items (Nat.le_of_succ_le_succ nested)
        (numbersReadBack_arr_iff.mp readsBack)
      rw [written, Written.value?]
      change (Written.itemValues? [] inner (writtenItems items)).map Json.arr = _
      rw [read, Option.map_some]
  | .obj members, depth, nested, readsBack => by
      rw [nesting] at nested
      obtain ⟨inner, rfl⟩ := Nat.exists_eq_add_one.mpr (Nat.lt_of_lt_of_le (by omega) nested)
      have read := memberValues?_writtenMembers members (Nat.le_of_succ_le_succ nested)
        (numbersReadBack_obj_iff.mp readsBack)
      rw [written, Written.value?]
      change (Written.memberValues? .whole inner (writtenMembers members)).map Json.obj = _
      rw [read, Option.map_some]

theorem itemValues?_writtenItems :
    (items : List Json) → {depth : Nat} → nestingOfItems items ≤ depth →
    (∀ item ∈ items, item.NumbersReadBack) →
    Written.itemValues? [] depth (writtenItems items) = some items
  | [], _, _, _ => by rw [writtenItems, Written.itemValues?]
  | item :: rest, depth, nested, readsBack => by
      rw [nestingOfItems, max_le_iff] at nested
      rw [List.forall_mem_cons] at readsBack
      have first := value?_written item nested.1 readsBack.1
      have others := itemValues?_writtenItems rest nested.2 readsBack.2
      rw [writtenItems, Written.itemValues?]
      simp only [List.head?_nil, Option.getD_none, List.tail_nil, first, others,
        Option.bind_eq_bind, Option.bind_some]

theorem memberValues?_writtenMembers :
    (members : List (String × Json)) → {depth : Nat} → nestingOfMembers members ≤ depth →
    (∀ member ∈ members, member.2.NumbersReadBack) →
    Written.memberValues? .whole depth (writtenMembers members) = some members
  | [], _, _, _ => by rw [writtenMembers, Written.memberValues?]
  | (key, value) :: rest, depth, nested, readsBack => by
      rw [nestingOfMembers, max_le_iff] at nested
      rw [List.forall_mem_cons] at readsBack
      have first := value?_written value nested.1 readsBack.1
      have others := memberValues?_writtenMembers rest nested.2 readsBack.2
      rw [writtenMembers, Written.memberValues?, textOf?_writtenPieces]
      simp only [Option.map_some, String.ofList_toList, Outline.member?, first, others,
        Option.bind_eq_bind, Option.bind_some]

end

mutual

/-- Nothing is read of a text that is nested too deep. -/
theorem nesting_le_of_value? :
    (value : Json) → {depth : Nat} → {read : Json} →
    value.written.value? .whole depth = some read → value.nesting ≤ depth
  | .null, _, _, _ => Nat.zero_le _
  | .bool _, _, _, _ => Nat.zero_le _
  | .num _, _, _, _ => Nat.zero_le _
  | .str _, _, _, _ => Nat.zero_le _
  | .arr items, 0, _, found => by
      rw [written, Written.value?] at found
      cases found
  | .arr items, inner + 1, _, found => by
      rw [written, Written.value?] at found
      obtain ⟨values, itemsRead, -⟩ := Option.map_eq_some_iff.mp found
      exact Nat.succ_le_succ (nesting_le_of_itemValues? items itemsRead)
  | .obj members, 0, _, found => by
      rw [written, Written.value?] at found
      cases found
  | .obj members, inner + 1, _, found => by
      rw [written, Written.value?] at found
      obtain ⟨values, membersRead, -⟩ := Option.map_eq_some_iff.mp found
      exact Nat.succ_le_succ (nesting_le_of_memberValues? members membersRead)

theorem nesting_le_of_itemValues? :
    (items : List Json) → {depth : Nat} → {read : List Json} →
    Written.itemValues? [] depth (writtenItems items) = some read →
    nestingOfItems items ≤ depth
  | [], _, _, _ => Nat.zero_le _
  | item :: rest, _, _, found => by
      rw [writtenItems, Written.itemValues?] at found
      simp only [Option.bind_eq_bind, Option.bind_eq_some_iff] at found
      obtain ⟨_, first, _, others, -⟩ := found
      exact max_le (nesting_le_of_value? item first) (nesting_le_of_itemValues? rest others)

theorem nesting_le_of_memberValues? :
    (members : List (String × Json)) → {depth : Nat} → {read : List (String × Json)} →
    Written.memberValues? .whole depth (writtenMembers members) = some read →
    nestingOfMembers members ≤ depth
  | [], _, _, _ => Nat.zero_le _
  | (key, value) :: rest, _, _, found => by
      rw [writtenMembers, Written.memberValues?, textOf?_writtenPieces] at found
      simp only [Outline.member?, Option.map_some, Option.bind_eq_bind, Option.bind_some,
        Option.bind_eq_some_iff] at found
      obtain ⟨_, first, _, others, -⟩ := found
      exact max_le (nesting_le_of_value? value first) (nesting_le_of_memberValues? rest others)

end

theorem nesting_le_of_parse?_text
    {value read : Json} (parsed : parse? value.text = some read) :
    value.nesting ≤ depthLimit := by
  rw [parse?, parseOutline?_text] at parsed
  exact nesting_le_of_value? value parsed

/-- A value whose numbers read back reads back itself, unless it is nested too deep. -/
theorem parse?_text_iff
    {value : Json} (readsBack : value.NumbersReadBack) :
    parse? value.text = some value ↔ value.nesting ≤ depthLimit := by
  constructor
  · exact nesting_le_of_parse?_text
  · intro nested
    rw [parse?, parseOutline?_text]
    exact value?_written value nested readsBack

theorem nestingOfItems_le_iff {items : List Json} {limit : Nat} :
    nestingOfItems items ≤ limit ↔ ∀ item ∈ items, item.nesting ≤ limit := by
  induction items with
  | nil => simp [nestingOfItems]
  | cons item rest induction => simp [nestingOfItems, induction]

theorem nestingOfMembers_le_iff {members : List (String × Json)} {limit : Nat} :
    nestingOfMembers members ≤ limit ↔ ∀ member ∈ members, member.2.nesting ≤ limit := by
  induction members with
  | nil => simp [nestingOfMembers]
  | cons member rest induction => simp [nestingOfMembers, induction]

/-- An outline names every member of a value down to the parts that are read as a whole. -/
inductive Outline.Covers : Outline → Json → Prop where
  | whole (value : Json) : Covers .whole value
  | record {fields : List (String × Outline)} {members : List (String × Json)}
      (inner : String → Outline)
      (named : ∀ member ∈ members, lookup? member.1 fields = some (inner member.1))
      (covered : ∀ member ∈ members, Covers (inner member.1) member.2) :
      Covers (.record fields) (.obj members)

theorem Outline.covers_present
    {outlines : List (String × Outline)} (fields : List (String × Option Json))
    (inner : String → Outline)
    (named : ∀ field ∈ fields, lookup? field.1 outlines = some (inner field.1))
    (covered : ∀ field ∈ fields, ∀ value ∈ field.2, (inner field.1).Covers value) :
    (Outline.record outlines).Covers (.obj (present fields)) := by
  apply Outline.Covers.record inner
  · intro member written
    exact named _ (mem_present_iff.mp written)
  · intro member written
    exact covered _ (mem_present_iff.mp written) _ rfl

theorem memberValues?_of_named
    {outline : Outline} {depth : Nat} {members : List (String × Json)} (inner : String → Outline)
    (named : ∀ member ∈ members, outline.member? member.1 = some (inner member.1))
    (read : ∀ member ∈ members,
      member.2.written.value? (inner member.1) depth = some member.2) :
    Written.memberValues? outline depth (writtenMembers members) = some members := by
  induction members with
  | nil => rw [writtenMembers, Written.memberValues?]
  | cons member rest induction =>
      obtain ⟨key, value⟩ := member
      rw [List.forall_mem_cons] at named read
      have others := induction named.2 read.2
      rw [writtenMembers, Written.memberValues?, textOf?_writtenPieces]
      simp only [Option.map_some, String.ofList_toList, named.1, read.1, others,
        Option.bind_eq_bind, Option.bind_some]

/-- Nothing that an outline covers is passed over. -/
theorem value?_of_covers
    {outline : Outline} {value : Json} (covers : outline.Covers value)
    {depth : Nat} (nested : value.nesting ≤ depth)
    (readsBack : value.NumbersReadBack) :
    value.written.value? outline depth = some value := by
  induction covers generalizing depth with
  | whole value => exact value?_written value nested readsBack
  | @record fields members inner named covered induction =>
      rw [nesting] at nested
      obtain ⟨limit, rfl⟩ := Nat.exists_eq_add_one.mpr (Nat.lt_of_lt_of_le (by omega) nested)
      have read : Written.memberValues? (.record fields) limit (writtenMembers members) =
          some members := by
        apply memberValues?_of_named inner named
        intro member listed
        apply induction member listed
        · exact nestingOfMembers_le_iff.mp (Nat.le_of_succ_le_succ nested) member listed
        · exact numbersReadBack_obj_iff.mp readsBack member listed
      rw [written, Written.value?]
      change (Written.memberValues? (.record fields) limit (writtenMembers members)).map Json.obj =
        _
      rw [read, Option.map_some]

theorem parseOutline?_text_of_covers
    {outline : Outline} {value : Json} (covers : outline.Covers value)
    (nested : value.nesting ≤ depthLimit)
    (readsBack : value.NumbersReadBack) :
    parseOutline? outline value.text = some value := by
  rw [parseOutline?_text]
  exact value?_of_covers covers nested readsBack

end MapBlocks.Json
