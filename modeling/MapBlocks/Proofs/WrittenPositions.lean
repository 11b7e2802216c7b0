import MapBlocks.Markdown.Position
import MapBlocks.Proofs.JsonReading
import MapBlocks.Proofs.WrittenRecords

/-!
# Written positions

A position is read back from the value written for it.  Its numbers have 64 bits,
so that they read back from their texts too.
-/

namespace MapBlocks.Markdown

theorem word?_ofWord (value : UInt64) : word? (ofWord value) = some value := by
  have bound : (0 : ℤ) ≤ value.toNat ∧ (value.toNat : ℤ) < (Nat.pow 2 64 : ℕ) := by
    constructor
    · exact Int.natCast_nonneg _
    · exact Int.ofNat_lt.mpr value.toNat_lt
  rw [word?, ofWord, Json.below?, if_pos bound, Option.map_some, Int.toNat_natCast,
    UInt64.ofNat_toNat]

theorem numbersReadBack_ofWord (value : UInt64) : (ofWord value).NumbersReadBack := by
  apply Json.numbersReadBack_num_iff.mpr
  have bound := value.toNat_lt
  apply Json.Number.readsBack_int <;> omega

namespace Point

/-- The fields of a point, of which the offset may have no value. -/
def entries (point : Point) : List (String × Option Json) :=
  [("line", some (ofWord point.line)), ("column", some (ofWord point.column)),
    ("offset", point.offset.map ofWord)]

theorem distinct_entries (point : Point) : (point.entries.map Prod.fst).Nodup :=
  show fieldNames.Nodup by decide

theorem ofJson?_toJson (point : Point) : ofJson? point.toJson = some point := by
  have distinct := point.distinct_entries
  have record : Json.record? fieldNames point.toJson = some (Json.present point.entries) :=
    Json.record?_present distinct
  have line : Json.required? (Json.present point.entries) "line" word? = some point.line := by
    rw [Json.required?_present distinct List.mem_cons_self, word?_ofWord]
  have column : Json.required? (Json.present point.entries) "column" word? =
      some point.column := by
    rw [Json.required?_present distinct (List.mem_cons_of_mem _ List.mem_cons_self), word?_ofWord]
  have offset : Json.optional? (Json.present point.entries) "offset" word? =
      some point.offset := by
    apply Json.optional?_of_lookup? ofWord
    · exact Json.lookup?_present distinct (by simp [entries])
    · rfl
    · intro value _
      exact word?_ofWord value
  simp only [ofJson?, Option.bind_eq_bind, Option.bind_eq_some_iff]
  exact ⟨_, record, _, line, _, column, _, offset, rfl⟩

theorem numbersReadBack_toJson (point : Point) : point.toJson.NumbersReadBack := by
  apply Json.numbersReadBack_present point.entries
  simp only [entries, List.forall_mem_cons, Option.mem_some_iff, forall_eq']
  exact ⟨numbersReadBack_ofWord _, numbersReadBack_ofWord _,
    Json.numbersReadBack_of_mem_map numbersReadBack_ofWord, List.forall_mem_nil _⟩

/-- The parts of a point's text that are read. -/
def outline : Json.Outline := .record (fieldNames.map fun name => (name, .whole))

theorem covers_toJson (point : Point) : outline.Covers point.toJson := by
  apply Json.Outline.covers_present point.entries fun _ => .whole
  · simp [entries, Json.lookup?, fieldNames]
  · intro field _ value _
    exact .whole value

end Point

namespace Position

def entries (position : Position) : List (String × Option Json) :=
  [("start", some position.start.toJson), ("end", some position.stop.toJson)]

theorem distinct_entries (position : Position) : (position.entries.map Prod.fst).Nodup :=
  show fieldNames.Nodup by decide

theorem ofJson?_toJson (position : Position) : ofJson? position.toJson = some position := by
  have distinct := position.distinct_entries
  have record : Json.record? fieldNames position.toJson =
      some (Json.present position.entries) :=
    Json.record?_present distinct
  have start : Json.required? (Json.present position.entries) "start" Point.ofJson? =
      some position.start := by
    rw [Json.required?_present distinct List.mem_cons_self, Point.ofJson?_toJson]
  have stop : Json.required? (Json.present position.entries) "end" Point.ofJson? =
      some position.stop := by
    rw [Json.required?_present distinct (List.mem_cons_of_mem _ List.mem_cons_self),
      Point.ofJson?_toJson]
  simp only [ofJson?, Option.bind_eq_bind, Option.bind_eq_some_iff]
  exact ⟨_, record, _, start, _, stop, rfl⟩

theorem numbersReadBack_toJson (position : Position) : position.toJson.NumbersReadBack := by
  apply Json.numbersReadBack_present position.entries
  simp only [entries, List.forall_mem_cons, Option.mem_some_iff, forall_eq']
  exact ⟨position.start.numbersReadBack_toJson, position.stop.numbersReadBack_toJson,
    List.forall_mem_nil _⟩

/-- The parts of a position's text that are read. -/
def outline : Json.Outline := .record (fieldNames.map fun name => (name, Point.outline))

theorem covers_toJson (position : Position) : outline.Covers position.toJson := by
  apply Json.Outline.covers_present position.entries fun _ => Point.outline
  · simp [entries, Json.lookup?, fieldNames]
  · simp only [entries, List.forall_mem_cons, Option.mem_some_iff, forall_eq']
    exact ⟨position.start.covers_toJson, position.stop.covers_toJson, List.forall_mem_nil _⟩

end Position

end MapBlocks.Markdown
