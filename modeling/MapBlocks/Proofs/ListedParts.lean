import Mathlib.Data.List.Forall2
import MapBlocks.Proofs.TrimmedTexts
import MapBlocks.Text.Split

/-!
# Lists of parts

Texts may be joined with a separator and any blanks around them: the fields of the
whole are these texts again, trimmed.  A gap may stand in a list for a part that is
not there, and gaps at the end of the list may be left out.
-/

namespace MapBlocks.Text

theorem split_eq_splitOnP (isSeparator : Char → Bool) (text : List Char) :
    split isSeparator text = text.splitOnP isSeparator := by
  induction text with
  | nil => rfl
  | cons c rest induction =>
      rw [split, induction, List.splitOnP_cons_eq_if_modifyHead]
      split
      · rfl
      · cases pieces : rest.splitOnP isSeparator with
        | nil => exact absurd pieces (List.splitOnP_ne_nil _ _)
        | cons piece pieces => rfl

theorem split_eq_splitOn (separator : Char) (text : List Char) :
    split (· = separator) text = text.splitOn separator :=
  split_eq_splitOnP (· = separator) text

/-- Blanks may have been put around a text. -/
def Pads (text padded : String) : Prop :=
  ∃ before after,
    (∀ c ∈ before, isBlank c = true) ∧ (∀ c ∈ after, isBlank c = true) ∧
      padded.toList = before ++ (text.toList ++ after)

namespace Pads

theorem refl (text : String) : Pads text text :=
  ⟨[], [], List.forall_mem_nil _, List.forall_mem_nil _, (List.append_nil _).symm⟩

/-- What trimming cuts off are blanks. -/
theorem of_trimmed (text : String) : Pads (trimmed text) text := by
  have blank (text : List Char) : ∀ c ∈ text.takeWhile isBlank, isBlank c = true :=
    List.all_eq_true.mp List.all_takeWhile
  have cut (text : List Char) : text.takeWhile isBlank ++ trimLeft text = text :=
    List.takeWhile_append_dropWhile
  let body := trimLeft text.toList
  refine ⟨text.toList.takeWhile isBlank, (body.reverse.takeWhile isBlank).reverse,
    blank _, fun c member => blank _ c (List.mem_reverse.mp member), ?_⟩
  rw [trimmed, String.toList_ofList, trim, ← List.reverse_append, cut, List.reverse_reverse, cut]

theorem trimmed_eq {text padded : String} (pads : Pads text padded) :
    trimmed padded = trimmed text := by
  obtain ⟨before, after, blankBefore, blankAfter, spelled⟩ := pads
  rw [trimmed, trimmed, spelled, trim_padded blankBefore blankAfter]

theorem not_mem
    {text padded : String} (pads : Pads text padded) {c : Char} (visible : isBlank c = false)
    (free : c ∉ text.toList) : c ∉ padded.toList := by
  obtain ⟨before, after, blankBefore, blankAfter, spelled⟩ := pads
  have outside {blanks : List Char} (blank : ∀ c ∈ blanks, isBlank c = true) : c ∉ blanks := by
    intro member
    rw [blank c member] at visible
    cases visible
  simp only [spelled, List.mem_append, not_or]
  exact ⟨outside blankBefore, free, outside blankAfter⟩

variable {texts pieces : List String}

theorem map_trimmed_eq (padded : List.Forall₂ Pads texts pieces) :
    pieces.map trimmed = texts.map trimmed := by
  induction padded with
  | nil => rfl
  | cons pads _ induction => rw [List.map_cons, List.map_cons, pads.trimmed_eq, induction]

theorem not_mem_of_mem
    (padded : List.Forall₂ Pads texts pieces) {c : Char} (visible : isBlank c = false)
    (free : ∀ text ∈ texts, c ∉ text.toList) : ∀ piece ∈ pieces, c ∉ piece.toList := by
  induction padded with
  | nil => exact List.forall_mem_nil _
  | cons pads _ induction =>
      rw [List.forall_mem_cons] at free ⊢
      exact ⟨pads.not_mem visible free.1, induction free.2⟩

end Pads

/-- The fields of a joined text are the texts that were joined. -/
theorem fields_intercalate
    {separator : Char} (visible : isBlank separator = false)
    {texts pieces : List String} (nonempty : texts ≠ [])
    (free : ∀ text ∈ texts, separator ∉ text.toList)
    (padded : List.Forall₂ Pads texts pieces) :
    fields separator ((String.singleton separator).intercalate pieces) = texts.map trimmed := by
  have joined : pieces.map String.toList ≠ [] := by
    rw [Ne, List.map_eq_nil_iff]
    rintro rfl
    exact nonempty (List.forall₂_nil_right_iff.mp padded)
  have unsplit : ∀ piece ∈ pieces.map String.toList, separator ∉ piece := by
    rw [List.forall_mem_map]
    exact Pads.not_mem_of_mem padded visible free
  rw [fields, String.toList_intercalate, String.toList_singleton, split_eq_splitOn,
    List.splitOn_intercalate separator unsplit joined, List.map_map, ← Pads.map_trimmed_eq padded]
  rfl

/-- A text that is kept when it is read as a part: it is not empty, and has no blanks around it. -/
structure IsPlain (text : String) : Prop where
  nonempty : text ≠ ""
  isTrimmed : IsTrimmed text.toList

theorem isPlain_iff {text : String} : IsPlain text ↔ text ≠ "" ∧ IsTrimmed text.toList :=
  ⟨fun plain => ⟨plain.nonempty, plain.isTrimmed⟩, fun both => ⟨both.1, both.2⟩⟩

instance (text : String) : Decidable (IsPlain text) := decidable_of_iff _ isPlain_iff.symm

theorem IsPlain.nonempty?_trimmed {text : String} (plain : IsPlain text) :
    nonempty? (trimmed text) = some text := by
  rw [trimmed, trim_of_isTrimmed plain.isTrimmed, String.ofList_toList, nonempty?,
    if_neg plain.nonempty]

/-- An empty text is a part that is not there. -/
theorem bind_nonempty? (text? : Option String) :
    text?.bind nonempty? = nonempty? (text?.getD "") := by
  cases text? <;> rfl

/-- A list shows some parts in their order. -/
inductive Listed {α : Type} (gap : α) : List (Option α) → List α → Prop where
  /-- The list ends, and nothing but gaps would follow. -/
  | leftOut {parts : List (Option α)} (gaps : ∀ part ∈ parts, part.getD gap = gap) :
      Listed gap parts []
  /-- What follows the last part has no meaning. -/
  | beyond (items : List α) : Listed gap [] items
  | next (part : Option α) {parts : List (Option α)} {items : List α}
      (others : Listed gap parts items) : Listed gap (part :: parts) (part.getD gap :: items)

variable {α : Type} {gap : α} {parts : List (Option α)} {items : List α}

theorem Listed.getD_getElem?
    (listed : Listed gap parts items) {index : ℕ} {part : Option α}
    (place : parts[index]? = some part) : items[index]?.getD gap = part.getD gap := by
  induction listed generalizing index with
  | leftOut gaps => exact (gaps part (List.mem_of_getElem? place)).symm
  | beyond items => cases place
  | next first others induction =>
      cases index with
      | zero =>
          cases place
          rfl
      | succ index => exact induction place

/-- A part is read from the text that shows it. -/
theorem Listed.bind_nonempty?
    (listed : Listed gap parts items) {shown : α → String} (empty : shown gap = "")
    {index : ℕ} {part : Option α} (place : parts[index]? = some part) :
    (items.map shown)[index]?.bind nonempty? = nonempty? (shown (part.getD gap)) := by
  rw [Text.bind_nonempty?, List.getElem?_map, ← empty, Option.getD_map,
    listed.getD_getElem? place]

end MapBlocks.Text
