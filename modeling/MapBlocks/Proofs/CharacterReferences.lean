import MapBlocks.Text.Html

/-!
# Character references

A text with its special characters written as references holds no character that
could end an attribute or start a tag, and it reads back as the text.  An
ampersand is written as a reference too, so that references which were already
in the text come back as they were.
-/

namespace MapBlocks.Text.Html

/-- The characters that are always written as references, the ampersand apart. -/
def markupChars : List Char := ['<', '>', '"', '\'']

theorem escapeChar_of_ordinary {c : Char} (ampersand : c ≠ '&') (ordinary : c ∉ markupChars) :
    escapeChar c = [c] := by
  unfold escapeChar
  split <;> simp_all [markupChars]

theorem not_mem_escapeChar {special : Char} (markup : special ∈ markupChars) (c : Char) :
    special ∉ escapeChar c := by
  have references : ['&', '<', '>', '"', '\''].all (fun c =>
      markupChars.all fun special => !(escapeChar c).contains special) = true := by decide
  by_cases referenced : c ∈ ['&', '<', '>', '"', '\'']
  · have absent := List.all_eq_true.mp (List.all_eq_true.mp references c referenced) special markup
    simpa using absent
  · rw [List.mem_cons, not_or] at referenced
    rw [escapeChar_of_ordinary referenced.1 referenced.2, List.mem_singleton]
    intro same
    exact referenced.2 (same ▸ markup)

/-- An escaped text cannot end the attribute it stands in. -/
theorem not_mem_escape {special : Char} (markup : special ∈ markupChars) (text : List Char) :
    special ∉ escape text := by
  intro member
  obtain ⟨c, -, found⟩ := List.mem_flatMap.mp member
  exact not_mem_escapeChar markup c found

theorem escape_append (left right : List Char) :
    escape (left ++ right) = escape left ++ escape right :=
  List.flatMap_append

theorem unescape_cons_of_ne {c : Char} (ordinary : c ≠ '&') (rest : List Char) :
    unescape (c :: rest) = c :: unescape rest := by
  rw [unescape.eq_def (c :: rest)]
  split <;> simp_all

theorem unescape_escapeChar_append (c : Char) (rest : List Char) :
    unescape (escapeChar c ++ rest) = c :: unescape rest := by
  by_cases ampersand : c = '&'
  · subst c
    rfl
  · by_cases referenced : c ∈ markupChars
    · simp only [markupChars, List.mem_cons, List.not_mem_nil, or_false] at referenced
      rcases referenced with rfl | rfl | rfl | rfl <;> rfl
    · rw [escapeChar_of_ordinary ampersand referenced, List.singleton_append,
        unescape_cons_of_ne ampersand]

/-- References are undone exactly, whatever stood in the text before. -/
theorem unescape_escape (text : List Char) : unescape (escape text) = text := by
  induction text with
  | nil => rfl
  | cons c rest induction =>
      change unescape (escapeChar c ++ escape rest) = c :: rest
      rw [unescape_escapeChar_append, induction]

end MapBlocks.Text.Html
