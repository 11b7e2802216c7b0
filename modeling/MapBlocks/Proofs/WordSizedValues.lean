import MapBlocks.Proofs.ReadValues

/-!
# Integers of payloads

Integers are read from scalars of a document, and only those of 64 bits.  So no other
integer is in a payload, at any depth.
-/

namespace MapBlocks

namespace Yaml

/-- The integers in a value, at any depth, are of 64 bits. -/
inductive Value.WordSized : Value → Prop where
  | null : WordSized .null
  | bad : WordSized .bad
  | bool (value : Bool) : WordSized (.bool value)
  | int {value : ℤ} (fits : value.natAbs < 2 ^ 64) : WordSized (.int value)
  | real (text : String) : WordSized (.real text)
  | str (text : String) : WordSized (.str text)
  | seq {items : List Value} (each : ∀ item ∈ items, WordSized item) : WordSized (.seq items)
  | map {entries : List (Value × Value)} (keys : ∀ entry ∈ entries, WordSized entry.1)
      (values : ∀ entry ∈ entries, WordSized entry.2) : WordSized (.map entries)

namespace Value

theorem natAbs_lt_of_word? {radix : ℕ} {text : List Char} {value : ℤ}
    (read : Decimal.word? radix text = some value) : value.natAbs < 2 ^ 64 := by
  simp only [Decimal.word?, Option.bind_eq_bind, Option.bind_eq_some_iff, Nat.pow_eq] at read
  obtain ⟨magnitude, -, bounded⟩ := read
  split at bounded
  · split at bounded
    · cases bounded
      omega
    · cases bounded
  · split at bounded
    · cases bounded
      omega
    · cases bounded

theorem natAbs_lt_of_markedInt? {text : List Char} {value : ℤ}
    (read : markedInt? text = some value) : value.natAbs < 2 ^ 64 := by
  unfold markedInt? at read
  split at read
  · exact natAbs_lt_of_word? read
  · exact natAbs_lt_of_word? read
  · exact natAbs_lt_of_word? read
  · cases read

theorem wordSized_ofPlain (text : String) : (ofPlain text).WordSized := by
  unfold ofPlain
  split
  · rename_i value read
    exact .int (natAbs_lt_of_markedInt? read)
  · repeat' split
    all_goals first | exact .int (natAbs_lt_of_word? ‹_›) | constructor

theorem wordSized_ofCore (suffix text : String) : (ofCore suffix text).WordSized := by
  unfold ofCore
  repeat' split
  all_goals first | exact .int (natAbs_lt_of_word? ‹_›) | constructor

theorem wordSized_ofScalar (properties : Properties) (style : Style) (text : String) :
    (ofScalar properties style text).WordSized := by
  unfold ofScalar
  split
  · exact .str text
  · split
    · exact wordSized_ofPlain text
    · split
      · exact wordSized_ofCore _ text
      · exact .str text

theorem WordSized.of_valueOf? {entries : List (Value × Value)} {key : String} {value : Value}
    (sized : (Value.map entries).WordSized) (found : valueOf? key entries = some value) :
    value.WordSized := by
  have values : ∀ entry ∈ entries, entry.2.WordSized := by
    cases sized with
    | map keys values => exact values
  clear sized
  fun_induction valueOf? key entries with
  | case1 => cases found
  | case2 first rest =>
      cases found
      exact values _ List.mem_cons_self
  | case3 name first rest other induction =>
      exact induction found (List.forall_mem_cons.mp values).2
  | case4 entry rest other induction =>
      exact induction found (List.forall_mem_cons.mp values).2

theorem hereditary_wordSized : Hereditary WordSized where
  bad := .bad
  scalar := wordSized_ofScalar
  seq := .seq
  map := .map

end Value

end Yaml

namespace Payload

/-- The integers in a payload are of 64 bits. -/
theorem wordSized_parseOrEmpty (text : String) :
    (Yaml.Value.map (parseOrEmpty text).entries).WordSized :=
  of_hereditary Yaml.Value.hereditary_wordSized text

theorem wordSized_of_get?
    {text key : String} {value : Yaml.Value} (given : (parseOrEmpty text).get? key = some value) :
    value.WordSized :=
  (wordSized_parseOrEmpty text).of_valueOf? (Option.eq_some_of_filter_eq_some given)

end Payload

end MapBlocks
