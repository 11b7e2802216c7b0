import MapBlocks.Proofs.JsonTexts
import MapBlocks.Proofs.MarkupLines
import MapBlocks.Proofs.ScriptLiterals
import MapBlocks.Proofs.TextSearch
import MapBlocks.Proofs.WrittenRecords

/-!
# Two copies of a description

The element of a map carries its description in base64, and the script after it
lists the fields of the description once more, each on a line of its own.  The
two are made from different tables, which agree: a field without a value is left
out of the first and is `undefined` in the second, and every other field has the
same value in both.
-/

namespace MapBlocks

namespace Map.Spec

theorem newline_not_mem_scriptLiteral (value? : Option Json) :
    '\n' ∉ (scriptLiteral value?).toList := by
  intro member
  have visible := List.all_eq_true.mp (all_isVisible_scriptLiteral value?) '\n' member
  cases visible

/-- The lines of the first script, of which the first is what is left of the start tag. -/
def scriptLines (spec : Spec) : List String :=
  [" type=\"text/javascript\">"] ++ ["var obsidianInfo = \x7b"] ++ entryLines spec.entries ++
    ["\x7d;"] ++ (pageLines ++ [scriptClosing])

theorem newline_not_mem_entryLines (spec : Spec) :
    ∀ line ∈ entryLines spec.entries, '\n' ∉ line.toList := by
  intro line member
  obtain ⟨key, literal, entry, comma, end_, rfl⟩ := mem_entryLines member
  obtain ⟨value?, -, rfl⟩ := mem_entries entry
  have name : '\n' ∉ key.toList :=
    forall_key_of_forall_fieldNames (by decide : ∀ name ∈ fieldNames, '\n' ∉ name.toList) entry
  have literal := newline_not_mem_scriptLiteral value?
  simp only [String.toList_append, List.mem_append, name, literal]
  rcases end_ with rfl | rfl <;> decide

theorem newline_not_mem_scriptLines (spec : Spec) :
    ∀ line ∈ spec.scriptLines, '\n' ∉ line.toList := by
  have startTag : ∀ line ∈ [" type=\"text/javascript\">"], '\n' ∉ line.toList := by decide
  have opening : ∀ line ∈ ["var obsidianInfo = \x7b"], '\n' ∉ line.toList := by decide
  have closing : ∀ line ∈ ["\x7d;"], '\n' ∉ line.toList := by decide
  have page : ∀ line ∈ pageLines, '\n' ∉ line.toList := by decide
  have ending : ∀ line ∈ [scriptClosing], '\n' ∉ line.toList := by decide
  have entries := spec.newline_not_mem_entryLines
  simp only [scriptLines, List.forall_mem_append]
  exact ⟨⟨⟨⟨startTag, opening⟩, entries⟩, closing⟩, page, ending⟩

theorem intercalate_append_cons (separator left right : String) (lines : List String) :
    separator.intercalate ((left ++ right) :: lines) =
      left ++ separator.intercalate (right :: lines) := by
  cases lines with
  | nil => rfl
  | cons next others =>
      rw [String.intercalate_cons_cons, String.intercalate_cons_cons, String.append_assoc,
        String.append_assoc, String.append_assoc]

theorem container_eq_scriptLines (spec : Spec) :
    spec.container =
      spec.element ++ ("\n" ++ ("<script" ++ "\n".intercalate spec.scriptLines)) := by
  have opening : scriptOpening = "<script" ++ " type=\"text/javascript\">" := by decide
  rw [scriptLines, List.append_assoc, List.append_assoc, List.append_assoc, List.singleton_append,
    ← intercalate_append_cons, ← opening, container_eq, String.intercalate_cons_of_ne_nil (by simp),
    infoLines, String.append_assoc]
  simp only [List.cons_append, List.append_assoc, List.nil_append]

/-- The first script starts after the element. -/
theorem after?_container (spec : Spec) :
    Text.after? "<script".toList spec.container.toList =
      some ("\n".intercalate spec.scriptLines).toList := by
  have starts : "<script".toList.head? = some '<' := by decide
  have goesOn : "<script".toList.tail.head? = some 's' := by decide
  have closing : "</div>".toList = '<' :: "/div>".toList := by decide
  rw [container_eq_scriptLines, String.toList_append, String.toList_append, String.toList_append,
    toList_element, startTag, closing]
  -- The opening brackets of the element are followed by its name and by a slash.
  simp only [List.cons_append, List.append_assoc, List.nil_append]
  rw [Text.after?_cons_of_head?_ne starts goesOn _ (by simp [List.head?_append, head?_tagContent]),
    Text.after?_append_of_not_mem starts spec.not_mem_tagContent,
    Text.after?_cons_of_ne starts (by decide),
    Text.after?_cons_of_head?_ne starts goesOn _ (by simp),
    Text.after?_append_of_not_mem starts (by decide),
    Text.after?_append_of_not_mem starts (by decide), Text.after?_append]

theorem splitOn_scriptLines (spec : Spec) :
    ("\n".intercalate spec.scriptLines).toList.splitOn '\n' =
      spec.scriptLines.map String.toList := by
  have plain : ∀ line ∈ spec.scriptLines.map String.toList, '\n' ∉ line := by
    intro line member
    obtain ⟨text, found, rfl⟩ := List.mem_map.mp member
    exact spec.newline_not_mem_scriptLines text found
  rw [String.toList_intercalate]
  exact List.splitOn_intercalate '\n' plain (by simp [scriptLines])

theorem nodup_fieldNames : fieldNames.Nodup := by decide

theorem lookup?_fields
    {spec : Spec} {key : String} {value? : Option Json} (field : (key, value?) ∈ spec.fields) :
    Json.lookup? key (Json.present spec.fields) = value? :=
  Json.lookup?_present (spec.map_fst_fields ▸ nodup_fieldNames) field

/-- A description is decoded as the fields that have a value. -/
theorem read?_encoded (spec : Spec) :
    (Text.Base64.decodeString? spec.encoded).bind Json.read? =
      some (.obj (Json.legibleMembers (Json.present spec.fields))) := by
  rw [encoded, Text.Base64.decodeString?_encodeString, Option.bind_some, Json.read?_text]
  rfl

end Map.Spec

/-- A literal is read as the value that it stands for. -/
theorem read?_scriptLiteral (value : Json) :
    Json.read? (scriptLiteral (some value)) = some value.legible := by
  rw [Json.read?, parse?_scriptLiteral (Json.Written.parse?_render value), Option.bind_some,
    Json.nearest?_written]

/-- The literal of a value that is not there is no JSON text. -/
theorem read?_undefined : Json.read? "undefined" = none := by
  have spelled : "undefined".toList = 'u' :: "ndefined".toList := by decide
  have unread : Json.tokens? ('u' :: "ndefined".toList) = none :=
    Json.tokens?_of_token?_eq_none rfl rfl
  rw [Json.read?, Json.Written.parse?, spelled, unread]
  rfl

namespace Map.Spec

/-- The script lists the same fields with the same values as the description that
the element carries. -/
theorem copies_of_description (spec : Spec) :
    ∃ script leading entries trailing members,
      Text.after? "<script".toList spec.container.toList = some script ∧
      script.splitOn '\n' =
        (leading ++ ["var obsidianInfo = \x7b"] ++ entryLines entries ++ ["\x7d;"] ++
          trailing).map String.toList ∧
      "var obsidianInfo = \x7b" ∉ leading ∧ "\x7d;" ∉ entryLines entries ∧
      entries.map Prod.fst = fieldNames ∧ fieldNames.length = 18 ∧ fieldNames.Nodup ∧
      (Text.Base64.decodeString? spec.encoded).bind Json.read? = some (.obj members) ∧
      (members.map Prod.fst).Sublist fieldNames ∧
      ∀ key literal, (key, literal) ∈ entries →
        (literal = "undefined" ↔ Json.lookup? key members = none) ∧
        ∀ value, Json.lookup? key members = some value → Json.read? literal = some value := by
  refine ⟨_, [" type=\"text/javascript\">"], spec.entries,
    pageLines ++ [scriptClosing], _,
    spec.after?_container, spec.splitOn_scriptLines, by decide, ?_, spec.map_fst_entries, rfl,
    nodup_fieldNames, spec.read?_encoded, ?_, ?_⟩
  · intro member
    obtain ⟨key, literal, -, comma, -, same⟩ := mem_entryLines member
    have margin := congrArg (fun line => line.toList.head?) same
    simp at margin
  · rw [Json.map_fst_legibleMembers]
    exact Json.map_fst_present_sublist spec.fields
  · intro key literal entry
    obtain ⟨value?, field, rfl⟩ := mem_entries entry
    rw [Json.lookup?_legibleMembers, lookup?_fields field]
    cases value? with
    | none => exact ⟨⟨fun _ => rfl, fun _ => rfl⟩, fun value found => nomatch found⟩
    | some value =>
        -- A field that is there has a readable literal, and `undefined` is not readable.
        have read := read?_scriptLiteral value
        refine ⟨⟨fun same => ?_, fun none => nomatch none⟩, fun found same => ?_⟩
        · rw [same, read?_undefined] at read
          cases read
        · cases same
          exact read

end Map.Spec

end MapBlocks
