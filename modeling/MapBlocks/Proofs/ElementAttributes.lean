import MapBlocks.Proofs.JsonTexts
import MapBlocks.Proofs.MarkupLines
import MapBlocks.Proofs.ScriptLiterals
import MapBlocks.Proofs.TextSearch

/-!
# The attributes of a map's element

The quotation marks around the attributes are the only ones in the start tag, so
that an attribute is what stands between two of them.  With its references
undone, each attribute is the text that it was written for; and the script that
draws the map names the element by the same identifier, in its own notation.
-/

namespace MapBlocks

namespace Map.Spec

/-- The text of the attribute with the size of a map's element. -/
def style (spec : Spec) : String := "height:" ++ spec.height ++ ";width:" ++ spec.width

theorem escape_style (spec : Spec) :
    Text.Html.escape spec.style.toList =
      "height:".toList ++ Text.Html.escape spec.height.toList ++ ";width:".toList ++
        Text.Html.escape spec.width.toList := by
  have height : Text.Html.escape "height:".toList = "height:".toList := by decide
  have width : Text.Html.escape ";width:".toList = ";width:".toList := by decide
  simp only [style, String.toList_append, Text.Html.escape_append, height, width]

theorem exists_container_parts (spec : Spec) :
    ∃ rest,
      spec.container.toList =
        "<div class=".toList ++ '"' :: ("qz-leaflet".toList ++ '"' :: (" id=".toList ++
          '"' :: (Text.Html.escape spec.elementId.toList ++ '"' :: (" style=".toList ++
          '"' :: (Text.Html.escape spec.style.toList ++ '"' :: (" aria-label=".toList ++
          '"' :: (Text.Html.escape spec.label.toList ++ '"' :: (" data-map-spec=".toList ++
          '"' :: (spec.encoded.toList ++ '"' :: ("></div>\n<script type=".toList ++
          '"' :: rest)))))))))) := by
  have opening : "<div class=\"qz-leaflet\" id=\"".toList =
      "<div class=".toList ++ '"' :: ("qz-leaflet".toList ++ '"' :: (" id=".toList ++ ['"'])) := by
    decide
  have style : "\" style=\"height:".toList =
      '"' :: (" style=".toList ++ '"' :: "height:".toList) := by decide
  have label : "\" aria-label=\"".toList = '"' :: (" aria-label=".toList ++ ['"']) := by decide
  have description : "\" data-map-spec=\"".toList =
      '"' :: (" data-map-spec=".toList ++ ['"']) := by decide
  have closing : "\"></div>".toList = '"' :: "></div>".toList := by decide
  have script : scriptOpening.toList =
      "<script type=".toList ++ '"' :: "text/javascript\">".toList := by decide
  have border : "></div>\n<script type=".toList =
      "></div>".toList ++ ("\n".toList ++ "<script type=".toList) := by decide
  obtain ⟨rest, whole⟩ :
      ∃ rest, spec.container = spec.element ++ ("\n" ++ (scriptOpening ++ rest)) := by
    rw [container_eq, String.intercalate_cons_of_ne_nil (by simp), infoLines, List.cons_append,
      String.intercalate_cons_of_ne_nil (by simp)]
    generalize "\n".intercalate _ = others
    exact ⟨"\n" ++ others, by simp only [String.append_assoc]⟩
  refine ⟨"text/javascript\">".toList ++ rest.toList, ?_⟩
  rw [whole]
  unfold element Text.Html.escaped
  simp only [String.toList_append, String.toList_ofList, opening, style, label, description,
    closing, script, border, escape_style, List.append_assoc, List.cons_append, List.nil_append]

/-- The first argument with which the script calls `L.map`. -/
theorem after?_initScript (spec : Spec) (scale : Scale) :
    ∃ rest, Text.after? "L.map(".toList (spec.initScript scale).toList =
      some ((scriptLiteral (some (.str spec.elementId))).toList ++ ',' :: rest) := by
  obtain ⟨others, whole⟩ : ∃ others, spec.initScript scale =
      scriptOpening ++ ("\n" ++ ("var map = L.map(" ++
        (scriptLiteral (some (.str spec.elementId)) ++ (", \x7b" ++ others)))) := by
    rw [initScript_eq, drawingLines, List.cons_append, List.cons_append,
      String.intercalate_cons_of_ne_nil (by simp), String.intercalate_cons_of_ne_nil (by simp)]
    generalize "\n".intercalate _ = others
    refine ⟨"\n" ++ others, ?_⟩
    unfold targetLine
    simp only [String.append_assoc]
  have call : "var map = L.map(".toList = "var map = ".toList ++ "L.map(".toList := by decide
  have comma : ", \x7b".toList = ',' :: " \x7b".toList := by decide
  refine ⟨" \x7b".toList ++ others.toList, ?_⟩
  rw [whole]
  simp only [String.toList_append, call, comma, List.append_assoc, List.cons_append]
  have starts : "L.map(".toList.head? = some 'L' := by decide
  rw [Text.after?_append_of_not_mem starts (by decide),
    Text.after?_append_of_not_mem starts (by decide),
    Text.after?_append_of_not_mem starts (by decide), Text.after?_append]

end Map.Spec

/-- A string reads back from its literal. -/
theorem parse?_scriptLiteral_str (text : String) :
    Json.parse? (scriptLiteral (some (.str text))) = some (.str text) := by
  have tree := parse?_scriptLiteral (Json.Written.parse?_render (.str text))
  rw [Json.parse?, Json.parseOutline?, tree, Option.bind_some, Json.written, Json.Written.value?,
    Json.textOf?_writtenPieces, Option.map_some, String.ofList_toList]

namespace Map.Spec

/-- The quotation marks in the start tag are those around its attributes. -/
theorem splitOn_container (spec : Spec) :
    ∃ others, spec.container.toList.splitOn '"' =
      ["<div class=".toList, "qz-leaflet".toList, " id=".toList,
        Text.Html.escape spec.elementId.toList, " style=".toList,
        Text.Html.escape spec.style.toList, " aria-label=".toList,
        Text.Html.escape spec.label.toList, " data-map-spec=".toList, spec.encoded.toList,
        "></div>\n<script type=".toList] ++ others := by
  obtain ⟨rest, parts⟩ := spec.exists_container_parts
  -- The quotation marks of the template are taken off one after the other.
  have escaped (text : List Char) : '"' ∉ Text.Html.escape text :=
    Text.Html.not_mem_escape (by decide) text
  have encoded : '"' ∉ spec.encoded.toList := Text.Base64.not_mem_encodeString rfl _
  refine ⟨rest.splitOn '"', ?_⟩
  rw [parts, List.splitOn_append_cons_self_of_not_mem (by decide),
    List.splitOn_append_cons_self_of_not_mem (by decide),
    List.splitOn_append_cons_self_of_not_mem (by decide),
    List.splitOn_append_cons_self_of_not_mem (escaped _),
    List.splitOn_append_cons_self_of_not_mem (by decide),
    List.splitOn_append_cons_self_of_not_mem (escaped _),
    List.splitOn_append_cons_self_of_not_mem (by decide),
    List.splitOn_append_cons_self_of_not_mem (escaped _),
    List.splitOn_append_cons_self_of_not_mem (by decide),
    List.splitOn_append_cons_self_of_not_mem encoded,
    List.splitOn_append_cons_self_of_not_mem (by decide)]
  rfl

/-- The attributes of a map's element hold the identifier, the size and the label
of the map and its description, whatever these texts are, and the script that
draws the map addresses the element by its identifier. -/
theorem attributes_of_element (spec : Spec) (scale : Scale) :
    ∃ id style label tail others,
      spec.container.toList.splitOn '"' =
        ["<div class=".toList, "qz-leaflet".toList, " id=".toList, id, " style=".toList, style,
          " aria-label=".toList, label, " data-map-spec=".toList, spec.encoded.toList, tail] ++
          others ∧
      "></div>".toList <+: tail ∧
      (∀ value ∈ [id, style, label], '<' ∉ value ∧ '>' ∉ value ∧ '\'' ∉ value) ∧
      Text.Html.unescape id = spec.elementId.toList ∧
      Text.Html.unescape style =
        ("height:" ++ spec.height ++ ";width:" ++ spec.width).toList ∧
      Text.Html.unescape label = spec.label.toList ∧
      ∃ argument rest,
        Text.after? "L.map(".toList (spec.initScript scale).toList =
          some (argument ++ ',' :: rest) ∧
        Json.parse? (String.ofList argument) =
          some (.str (String.ofList (Text.Html.unescape id))) := by
  obtain ⟨others, divided⟩ := spec.splitOn_container
  obtain ⟨rest, call⟩ := spec.after?_initScript scale
  have plain (special : Char) (markup : special ∈ Text.Html.markupChars) :
      ∀ value ∈ [Text.Html.escape spec.elementId.toList, Text.Html.escape spec.style.toList,
        Text.Html.escape spec.label.toList], special ∉ value := by
    simp [Text.Html.not_mem_escape markup]
  refine ⟨_, _, _, _, others, divided, ⟨"\n<script type=".toList, by decide⟩, ?_,
    Text.Html.unescape_escape _, Text.Html.unescape_escape _, Text.Html.unescape_escape _, _, rest,
    call, ?_⟩
  · exact fun value member => ⟨plain '<' (by decide) value member,
      plain '>' (by decide) value member, plain '\'' (by decide) value member⟩
  · rw [String.ofList_toList, parse?_scriptLiteral_str, Text.Html.unescape_escape,
      String.ofList_toList]

end Map.Spec

end MapBlocks
