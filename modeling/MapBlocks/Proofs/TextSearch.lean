/-!
# Searching a text

The text after the first occurrence of a pattern.  A text without the first
character of the pattern can be passed over at once.
-/

namespace MapBlocks.Text

/-- What follows the first occurrence of a pattern. -/
def after? (pattern : List Char) : List Char → Option (List Char)
  | [] => if pattern.isEmpty then some [] else none
  | c :: rest =>
      if pattern.isPrefixOf (c :: rest) then some ((c :: rest).drop pattern.length)
      else after? pattern rest

theorem after?_append (pattern rest : List Char) :
    after? pattern (pattern ++ rest) = some rest := by
  cases whole : pattern ++ rest with
  | nil =>
      obtain ⟨rfl, rfl⟩ := List.append_eq_nil_iff.mp whole
      rfl
  | cons c others =>
      have found : pattern.isPrefixOf (c :: others) = true := by
        rw [← whole]
        exact List.isPrefixOf_iff_prefix.mpr (List.prefix_append pattern rest)
      rw [after?, if_pos found, ← whole, List.drop_left]

variable {pattern : List Char} {first : Char} (starts : pattern.head? = some first)

include starts

theorem after?_cons_of_ne {c : Char} (other : c ≠ first) (rest : List Char) :
    after? pattern (c :: rest) = after? pattern rest := by
  obtain ⟨others, rfl⟩ := List.head?_eq_some_iff.mp starts
  simp [after?, List.isPrefixOf, other.symm]

/-- An occurrence goes on with the second character of the pattern. -/
theorem after?_cons_of_head?_ne
    {second : Char} (goesOn : pattern.tail.head? = some second) (c : Char)
    {rest : List Char} (other : rest.head? ≠ some second) :
    after? pattern (c :: rest) = after? pattern rest := by
  obtain ⟨others, rfl⟩ := List.head?_eq_some_iff.mp starts
  obtain ⟨remaining, rfl⟩ := List.head?_eq_some_iff.mp goesOn
  rw [after?, if_neg]
  cases rest with
  | nil => simp [List.isPrefixOf]
  | cons d later =>
      have apart : second ≠ d := fun same => other (congrArg some same.symm)
      simp [List.isPrefixOf, apart]

/-- An occurrence cannot start in a text without the first character of the pattern. -/
theorem after?_append_of_not_mem
    {before : List Char} (absent : first ∉ before) (rest : List Char) :
    after? pattern (before ++ rest) = after? pattern rest := by
  induction before with
  | nil => rfl
  | cons c others induction =>
      have other : c ≠ first := fun same => absent (same ▸ List.mem_cons_self)
      rw [List.cons_append, after?_cons_of_ne starts other,
        induction fun later => absent (List.mem_cons_of_mem c later)]

end MapBlocks.Text
