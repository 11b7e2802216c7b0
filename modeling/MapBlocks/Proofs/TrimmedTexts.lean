import MapBlocks.Text.Blank

/-!
# Trimmed texts

Trimming leaves a text that neither starts nor ends with a blank, and leaves such a
text as it is.  Blanks around a text make no difference to it.
-/

namespace MapBlocks.Text

/-- Neither the first nor the last character of a text is blank. -/
structure IsTrimmed (text : List Char) : Prop where
  first : ∀ c ∈ text.head?, isBlank c = false
  last : ∀ c ∈ text.getLast?, isBlank c = false

theorem isTrimmed_iff {text : List Char} :
    IsTrimmed text ↔
      text.head?.all (!isBlank ·) = true ∧ text.getLast?.all (!isBlank ·) = true := by
  simp only [Option.all_eq_true, Bool.not_eq_true']
  exact ⟨fun trimmed => ⟨trimmed.first, trimmed.last⟩, fun ends => ⟨ends.1, ends.2⟩⟩

instance (text : List Char) : Decidable (IsTrimmed text) := decidable_of_iff _ isTrimmed_iff.symm

theorem head?_trimLeft (text : List Char) : ∀ c ∈ (trimLeft text).head?, isBlank c = false := by
  intro c first
  have stops := List.head?_dropWhile_not isBlank text
  rw [← trimLeft, Option.mem_def.mp first] at stops
  exact stops

/-- What is cut off at the end leaves the start of a text as it is. -/
theorem trim_isPrefix (text : List Char) : trim text <+: trimLeft text := by
  have suffix : trimLeft (trimLeft text).reverse <:+ (trimLeft text).reverse :=
    List.dropWhile_suffix isBlank
  apply List.reverse_suffix.mp
  rw [trim, List.reverse_reverse]
  exact suffix

theorem isTrimmed_trim (text : List Char) : IsTrimmed (trim text) := by
  constructor
  · intro c first
    obtain ⟨rest, whole⟩ := trim_isPrefix text
    apply head?_trimLeft text
    rw [← whole, List.head?_append, Option.mem_def.mp first]
    exact rfl
  · intro c last
    rw [trim, List.getLast?_reverse] at last
    exact head?_trimLeft _ c last

theorem isTrimmed_of_forall {text : List Char} (visible : ∀ c ∈ text, isBlank c = false) :
    IsTrimmed text where
  first c found := visible c (List.mem_of_mem_head? found)
  last c found := visible c (List.mem_of_mem_getLast? found)

theorem trimLeft_of_first {text : List Char} (first : ∀ c ∈ text.head?, isBlank c = false) :
    trimLeft text = text := by
  cases text with
  | nil => rfl
  | cons c rest =>
      rw [trimLeft, List.dropWhile_cons_of_neg]
      rw [first c rfl]
      exact Bool.false_ne_true

theorem trim_of_isTrimmed {text : List Char} (trimmed : IsTrimmed text) : trim text = text := by
  have reversed : ∀ c ∈ text.reverse.head?, isBlank c = false := by
    rw [List.head?_reverse]
    exact trimmed.last
  rw [trim, trimLeft_of_first trimmed.first, trimLeft_of_first reversed, List.reverse_reverse]

theorem trim_trim (text : List Char) : trim (trim text) = trim text :=
  trim_of_isTrimmed (isTrimmed_trim text)

theorem trimLeft_blanks_append
    {blanks : List Char} (blank : ∀ c ∈ blanks, isBlank c = true) (text : List Char) :
    trimLeft (blanks ++ text) = trimLeft text :=
  List.dropWhile_append_of_pos blank

/-- Blanks after a text are cut off with those at its end. -/
theorem trim_append_blanks
    (text : List Char) {blanks : List Char} (blank : ∀ c ∈ blanks, isBlank c = true) :
    trim (text ++ blanks) = trim text := by
  have none : trimLeft blanks = [] := by
    have only := trimLeft_blanks_append blank []
    rwa [List.append_nil] at only
  have reversed : ∀ c ∈ blanks.reverse, isBlank c = true := fun c found =>
    blank c (List.mem_reverse.mp found)
  have started : trimLeft (text ++ blanks) =
      if (trimLeft text).isEmpty then trimLeft blanks else trimLeft text ++ blanks :=
    List.dropWhile_append
  rw [trim, trim, started]
  split
  · rename_i empty
    rw [none, List.isEmpty_iff.mp empty]
  · rw [List.reverse_append, trimLeft_blanks_append reversed]

/-- Blanks around a text make no difference to it. -/
theorem trim_padded
    {before after : List Char} (blankBefore : ∀ c ∈ before, isBlank c = true)
    (blankAfter : ∀ c ∈ after, isBlank c = true) (text : List Char) :
    trim (before ++ (text ++ after)) = trim text := by
  rw [trim, trimLeft_blanks_append blankBefore, ← trim, trim_append_blanks text blankAfter]

end MapBlocks.Text
