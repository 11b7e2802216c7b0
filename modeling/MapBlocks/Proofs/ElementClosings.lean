import Mathlib
import MapBlocks.Proofs.MarkupLines
import MapBlocks.Proofs.NumberCharacters

/-!
# Closing tags in the HTML of a map

An element of a page ends at the next `</`.  The texts of a description reach a
page in three forms: with character references, in base64, and as JSON with
`</` broken up.  None of the three holds `</`, and none ends where the template
goes on with a slash, so that only the closing tags of the templates are left.
-/

namespace MapBlocks

/-- How often `</` occurs in a text. -/
def closings (text : List Char) : Nat := text.tails.countP "</".toList.isPrefixOf

theorem closings_cons (c : Char) (rest : List Char) :
    closings (c :: rest) =
      (if c = '<' ∧ rest.head? = some '/' then 1 else 0) + closings rest := by
  have starts :
      "</".toList.isPrefixOf (c :: rest) = true ↔ c = '<' ∧ rest.head? = some '/' := by
    change ['<', '/'].isPrefixOf (c :: rest) = true ↔ _
    cases rest with
    | nil => simp [List.isPrefixOf]
    | cons d others => simp [List.isPrefixOf, @eq_comm _ '<' c, @eq_comm _ '/' d]
  simp only [closings, List.tails, List.countP_cons, starts, Nat.add_comm]

/-- Texts can be searched one by one unless a slash follows at their border. -/
theorem closings_append
    (left : List Char) {right : List Char} (border : right.head? ≠ some '/') :
    closings (left ++ right) = closings left + closings right := by
  induction left with
  | nil => exact (Nat.zero_add _).symm
  | cons c rest induction =>
      have next : (rest ++ right).head? = some '/' ↔ rest.head? = some '/' := by
        cases rest with
        | nil => simp [border]
        | cons d others => rfl
      simp only [List.cons_append, closings_cons, next, induction, Nat.add_assoc]

theorem closings_append_of_not_mem
    {left : List Char} (absent : '<' ∉ left) (right : List Char) :
    closings (left ++ right) = closings right := by
  induction left with
  | nil => rfl
  | cons c rest induction =>
      have other : c ≠ '<' := fun same => absent (same ▸ List.mem_cons_self)
      rw [List.cons_append, closings_cons,
        induction (fun later => absent (List.mem_cons_of_mem c later))]
      simp [other]

theorem closings_of_not_mem {text : List Char} (absent : '<' ∉ text) :
    closings text = 0 := by
  have searched := closings_append_of_not_mem absent []
  rwa [List.append_nil] at searched

/-- No closing tag runs over the end of a line. -/
theorem closings_intercalate (lines : List String) :
    closings ("\n".intercalate lines).toList =
      (lines.map fun line => closings line.toList).sum := by
  induction lines with
  | nil => rfl
  | cons line lines induction =>
      cases lines with
      | nil => simp
      | cons next others =>
          have border : ("\n".toList ++ ("\n".intercalate (next :: others)).toList).head? ≠
              some '/' := by
            simp
          rw [String.intercalate_cons_cons, String.append_assoc, String.toList_append,
            String.toList_append, closings_append _ border,
            closings_append_of_not_mem (by decide), induction]
          rfl

theorem closings_escapeClosing (text : List Char) : closings (escapeClosing text) = 0 := by
  fun_induction escapeClosing text with
  | case1 rest induction => simp [closings_cons, induction]
  | case2 c rest whole induction =>
      have apart : ¬(c = '<' ∧ (escapeClosing rest).head? = some '/') := by
        rw [head?_escapeClosing]
        rintro ⟨rfl, slash⟩
        obtain ⟨others, rfl⟩ := List.head?_eq_some_iff.mp slash
        exact whole others rfl rfl
      simp [closings_cons, apart, induction]
  | case3 => rfl

theorem closings_scriptLiteral (value? : Option Json) :
    closings (scriptLiteral value?).toList = 0 := by
  cases value? with
  | none => rfl
  | some value => simp [scriptLiteral, closings_escapeClosing]

/-- A literal closes nothing together with what the template puts around it. -/
theorem closings_around_literal
    {before after : String} (plainBefore : '<' ∉ before.toList) (plainAfter : '<' ∉ after.toList)
    (border : after.toList.head? ≠ some '/') (value? : Option Json) :
    closings (before ++ scriptLiteral value? ++ after).toList = 0 := by
  rw [String.toList_append, String.toList_append, List.append_assoc,
    closings_append_of_not_mem plainBefore, closings_append _ border,
    closings_scriptLiteral, closings_of_not_mem plainAfter]

theorem not_mem_scriptNumber (x : Float) : '<' ∉ (scriptNumber x).toList := by
  intro member
  have numeric : (scriptNumber x).toList.all Decimal.isNumberChar = true :=
    Decimal.Layout.all_isNumberChar_render rfl rfl x
  have markup := List.all_eq_true.mp numeric '<' member
  revert markup
  decide

namespace Map.Spec

theorem closings_startTag (spec : Spec) : closings spec.startTag = 0 := by
  have border : (spec.tagContent.toList ++ ['>']).head? ≠ some '/' := by
    simp [List.head?_append, head?_tagContent]
  rw [startTag, closings_cons, closings_append_of_not_mem spec.not_mem_tagContent]
  simp only [border, and_false, if_false]
  decide

theorem closings_element (spec : Spec) : closings spec.element.toList = 1 := by
  rw [toList_element, closings_append _ (by decide), closings_startTag]
  decide

/-- No line of the script that repeats the description closes anything. -/
theorem sum_closings_entryLines (spec : Spec) :
    ((entryLines spec.entries).map fun line => closings line.toList).sum = 0 := by
  refine List.sum_eq_zero fun count counted => ?_
  obtain ⟨line, member, rfl⟩ := List.mem_map.mp counted
  obtain ⟨key, literal, entry, comma, ending, rfl⟩ := mem_entryLines member
  obtain ⟨value?, -, rfl⟩ := mem_entries entry
  have name : '<' ∉ key.toList :=
    forall_key_of_forall_fieldNames (by decide : ∀ name ∈ fieldNames, '<' ∉ name.toList) entry
  have margin : '<' ∉ ("    " ++ key ++ ": ").toList := by
    simp only [String.toList_append, List.mem_append, name]
    decide
  rcases ending with rfl | rfl <;>
    exact closings_around_literal margin (by decide) (by decide) value?

theorem closings_container (spec : Spec) : closings spec.container.toList = 2 := by
  rw [container_eq, closings_intercalate]
  simp only [infoLines, pageLines, List.map_append, List.map_cons, List.map_nil, List.sum_append,
    List.sum_cons, List.sum_nil, closings_element, sum_closings_entryLines]
  decide

theorem not_mem_imageBounds (spec : Spec) (scale : Scale) :
    '<' ∉ (spec.imageBounds scale).toList := by
  unfold imageBounds
  split
  · decide
  · simp only [String.toList_append, List.mem_append, not_mem_scriptNumber]
    decide

theorem sum_closings_imageLines (spec : Spec) (scale : Scale) :
    ((spec.imageLines scale).map fun line => closings line.toList).sum = 0 := by
  unfold imageLines
  split
  · rfl
  · rename_i path _
    have address := closings_around_literal (by decide : '<' ∉ "var imageUrl = ".toList)
      (by decide : '<' ∉ ",".toList) (by decide) (some (.str path))
    have bounds : '<' ∉ ("    imageBounds = " ++ spec.imageBounds scale ++ ";").toList := by
      simp only [String.toList_append, List.mem_append, not_mem_imageBounds]
      decide
    simp only [List.map_cons, List.map_nil, List.sum_cons, List.sum_nil, address,
      closings_of_not_mem bounds]
    decide

theorem closings_initScript (spec : Spec) (scale : Scale) :
    closings (spec.initScript scale).toList = 1 := by
  have target : closings spec.targetLine.toList = 0 :=
    closings_around_literal (by decide) (by decide) (by decide) _
  have center : '<' ∉ (spec.centerLine scale).toList := by
    unfold centerLine
    simp only [String.toList_append, List.mem_append, not_mem_scriptNumber]
    decide
  have zoom : '<' ∉ (spec.zoomLine scale).toList := by
    unfold zoomLine
    simp only [String.toList_append, List.mem_append, not_mem_scriptNumber]
    decide
  have images := spec.sum_closings_imageLines scale
  rw [initScript_eq, closings_intercalate]
  simp only [drawingLines, List.map_append, List.map_cons, List.map_nil, List.sum_append,
    List.sum_cons, List.sum_nil, target, closings_of_not_mem center, closings_of_not_mem zoom,
    images]
  decide

/-- No text of a description closes an element: the closing tag of the map's
element and that of each script are the only ones. -/
theorem closing_tags_of_templates (spec : Spec) (scale : Scale) :
    (∃ startTag script,
      spec.element.toList = startTag ++ "</div>".toList ∧
      spec.container.toList =
        startTag ++ "</div>".toList ++ script ++ "</script>".toList ∧
      closings spec.container.toList = 2) ∧
    ∃ script,
      (spec.initScript scale).toList = script ++ "</script>".toList ∧
      closings (spec.initScript scale).toList = 1 := by
  constructor
  · refine ⟨spec.startTag, ("\n" ++ "\n".intercalate spec.infoLines ++ "\n").toList,
      spec.toList_element, ?_, spec.closings_container⟩
    rw [container_eq, String.intercalate_cons_of_ne_nil (by simp),
      String.intercalate_append_of_ne_nil (by simp [infoLines]) (by simp)]
    simp only [String.toList_append, String.intercalate_singleton, toList_element, scriptClosing,
      List.append_assoc]
  · refine ⟨("\n".intercalate (spec.drawingLines scale) ++ "\n").toList, ?_,
      spec.closings_initScript scale⟩
    rw [initScript_eq, String.intercalate_append_of_ne_nil (by simp [drawingLines]) (by simp)]
    simp only [String.toList_append, String.intercalate_singleton, scriptClosing]

end Map.Spec

end MapBlocks
