import MapBlocks.Proofs.DescriptionCopies
import MapBlocks.Proofs.JsonReading

/-!
# The values of literals

A literal in a script is a JSON text, and reads as the value that it was written
for, however deep that is nested.  A reader that limits the nesting takes the
literal of every value within its limit.
-/

namespace MapBlocks

namespace Json

mutual

theorem legible_of_numbers :
    (value : Json) → (∀ number ∈ value.numbers, number.numeral?.isSome = true) →
    value.legible = value
  | .null, _ => by rw [legible]
  | .bool _, _ => by rw [legible]
  | .num number, written => by
      rw [legible, if_pos (written number List.mem_cons_self)]
  | .str _, _ => by rw [legible]
  | .arr items, written => by
      rw [numbers] at written
      rw [legible, legibleItems_of_numbers items written]
  | .obj members, written => by
      rw [numbers] at written
      rw [legible, legibleMembers_of_numbers members written]

theorem legibleItems_of_numbers :
    (items : List Json) → (∀ number ∈ numbersOfItems items, number.numeral?.isSome = true) →
    legibleItems items = items
  | [], _ => by rw [legibleItems]
  | item :: rest, written => by
      rw [numbersOfItems, List.forall_mem_append] at written
      rw [legibleItems, legible_of_numbers item written.1, legibleItems_of_numbers rest written.2]

theorem legibleMembers_of_numbers :
    (members : List (String × Json)) →
    (∀ number ∈ numbersOfMembers members, number.numeral?.isSome = true) →
    legibleMembers members = members
  | [], _ => by rw [legibleMembers]
  | (key, value) :: rest, written => by
      rw [numbersOfMembers, List.forall_mem_append] at written
      rw [legibleMembers, legible_of_numbers value written.1,
        legibleMembers_of_numbers rest written.2]

end

theorem Number.isSome_numeral? {number : Number} (readsBack : number.ReadsBack) :
    number.numeral?.isSome = true := by
  obtain ⟨numeral, spelled, -⟩ := Option.bind_eq_some_iff.mp (readsBack_iff.mp readsBack)
  rw [spelled]
  rfl

theorem legible_of_numbersReadBack {value : Json} (readsBack : value.NumbersReadBack) :
    value.legible = value :=
  legible_of_numbers value fun number found => Number.isSome_numeral? (readsBack number found)

/-- Reads a JSON text as `parse?` does, with a limit of its own to the nesting. -/
def parseWithin? (depth : ℕ) (text : String) : Option Json :=
  (Written.parse? text.toList).bind (·.value? .whole depth)

theorem parse?_eq_parseWithin? (text : String) : parse? text = parseWithin? depthLimit text := rfl

end Json

open Json

theorem parseWithin?_scriptLiteral (depth : ℕ) (value : Json) :
    parseWithin? depth (scriptLiteral (some value)) = value.written.value? .whole depth := by
  rw [parseWithin?, parse?_scriptLiteral (Written.parse?_render value), Option.bind_some]

theorem parseWithin?_scriptLiteral_iff
    {value : Json} (readsBack : value.NumbersReadBack) (depth : ℕ) :
    parseWithin? depth (scriptLiteral (some value)) = some value ↔ value.nesting ≤ depth := by
  rw [parseWithin?_scriptLiteral]
  constructor
  · intro read
    exact nesting_le_of_value? value read
  · intro nested
    exact value?_written value nested readsBack

/-- The literal of any value reads as the value, with `null` for numbers that JSON cannot write.
Where a reader knows the numbers again, it reads exactly the value, if its limit allows it. -/
theorem literals_read_back :
    (∀ value : Json, read? (scriptLiteral (some value)) = some value.legible) ∧
    ∀ value : Json, value.NumbersReadBack →
      read? (scriptLiteral (some value)) = some value ∧
      (∀ depth, parseWithin? depth (scriptLiteral (some value)) = some value ↔
        value.nesting ≤ depth) ∧
      (parse? (scriptLiteral (some value)) = some value ↔ value.nesting ≤ depthLimit) := by
  constructor
  · exact read?_scriptLiteral
  · intro value readsBack
    refine ⟨?_, parseWithin?_scriptLiteral_iff readsBack, ?_⟩
    · rw [read?_scriptLiteral, legible_of_numbersReadBack readsBack]
    · rw [parse?_eq_parseWithin?]
      exact parseWithin?_scriptLiteral_iff readsBack depthLimit

/-- A closing tag in a key, and in a string after a backslash. -/
theorem literals_read_back_with_closing_tags :
    let value : Json := .obj [("</script>", .arr [.str "<\\/</", .num (.int (-7))])]
    read? (scriptLiteral (some value)) = some value ∧
      parse? (scriptLiteral (some value)) = some value ∧
      parseWithin? 1 (scriptLiteral (some value)) ≠ some value := by
  intro value
  have seven : Number.ReadsBack (.int (-7)) := Number.readsBack_int (by decide) (by decide)
  have readsBack : value.NumbersReadBack := by
    intro number found
    have only : number = .int (-7) := by
      simpa [value, numbers, numbersOfItems, numbersOfMembers] using found
    rw [only]
    exact seven
  obtain ⟨same, within, whole⟩ := literals_read_back.2 value readsBack
  exact ⟨same, whole.mpr (by decide), fun read => absurd ((within 1).mp read) (by decide)⟩

end MapBlocks
