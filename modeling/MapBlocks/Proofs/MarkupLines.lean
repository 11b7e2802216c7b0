import Mathlib.Data.List.Basic
import MapBlocks.Proofs.Base64Coding
import MapBlocks.Proofs.CharacterReferences
import MapBlocks.Render

/-!
# The lines of the two pieces of HTML

The first piece is the element of a map and, from the next line on, the script
that repeats the description; the second is the script that draws the map.  Both
are given here as lines, of which the last is the closing tag of the script.

The script has a table of its own for what it repeats.  It agrees with the fields
that are written as JSON, key by key and value by value.
-/

namespace MapBlocks.Map.Spec

/-- What stands between the brackets of the start tag of a map's element. -/
def tagContent (spec : Spec) : String :=
  "div class=\"qz-leaflet\" id=\"" ++ Text.Html.escaped spec.elementId
    ++ "\" style=\"height:" ++ Text.Html.escaped spec.height
    ++ ";width:" ++ Text.Html.escaped spec.width
    ++ "\" aria-label=\"" ++ Text.Html.escaped spec.label
    ++ "\" data-map-spec=\"" ++ spec.encoded ++ "\""

/-- The start tag of a map's element. -/
def startTag (spec : Spec) : List Char := '<' :: (spec.tagContent.toList ++ ['>'])

/-- The lines with which the first script finds its page. -/
def pageLines : List String :=
  ["var getUrl = window.location;",
    "baseUrl = getUrl.protocol + \"//\" + getUrl.host + \"/\" + getUrl.pathname.split('/')[1];"]

/-- The script that repeats the description, without its closing tag. -/
def infoLines (spec : Spec) : List String :=
  scriptOpening :: "var obsidianInfo = \x7b" :: (entryLines spec.entries ++ "\x7d;" :: pageLines)

def targetLine (spec : Spec) : String :=
  "var map = L.map(" ++ scriptLiteral (some (.str spec.elementId)) ++ ", \x7b"

def centerLine (spec : Spec) (scale : Scale) : String :=
  let center := scale.center spec.lat spec.lng
  "    center: [" ++ scriptNumber center.first ++ ", " ++ scriptNumber center.second ++ "],"

def zoomLine (spec : Spec) (scale : Scale) : String :=
  "    zoom: " ++ scriptNumber (scale.zoom spec.defaultZoom)

/-- The script that draws the map, without its closing tag. -/
def drawingLines (spec : Spec) (scale : Scale) : List String :=
  scriptOpening :: spec.targetLine :: spec.centerLine scale :: spec.zoomLine scale ::
    "\x7d);" :: spec.imageLines scale

/-- The table of the script has the keys and the values of the JSON form. -/
theorem entries_eq (spec : Spec) :
    spec.entries = spec.fields.map fun (name, value?) => (name, scriptLiteral value?) := rfl

theorem map_fst_entries (spec : Spec) : spec.entries.map Prod.fst = fieldNames := rfl

theorem mem_entries
    {spec : Spec} {key literal : String} (member : (key, literal) ∈ spec.entries) :
    ∃ value?, (key, value?) ∈ spec.fields ∧ literal = scriptLiteral value? := by
  rw [entries_eq] at member
  obtain ⟨⟨name, value?⟩, field, same⟩ := List.mem_map.mp member
  cases same
  exact ⟨value?, field, rfl⟩

/-- A property of all keys of the script, of which there are only 18. -/
theorem forall_key_of_forall_fieldNames
    {property : String → Prop} (names : ∀ name ∈ fieldNames, property name)
    {spec : Spec} {key literal : String} (member : (key, literal) ∈ spec.entries) :
    property key :=
  names key (spec.map_fst_entries ▸ List.mem_map_of_mem (f := Prod.fst) member)

theorem mem_entryLines
    {entries : List (String × String)} {line : String} (member : line ∈ entryLines entries) :
    ∃ key literal, (key, literal) ∈ entries ∧
      ∃ comma, (comma = "" ∨ comma = ",") ∧
        line = "    " ++ key ++ ": " ++ literal ++ comma := by
  fun_induction entryLines entries with
  | case1 => cases member
  | case2 key literal =>
      rw [List.mem_singleton] at member
      exact ⟨key, literal, List.mem_cons_self, "", .inl rfl, by rw [member, String.append_empty]⟩
  | case3 key literal rest nonempty induction =>
      rcases List.mem_cons.mp member with first | later
      · exact ⟨key, literal, List.mem_cons_self, ",", .inr rfl, first⟩
      · obtain ⟨key, literal, found, written⟩ := induction later
        exact ⟨key, literal, List.mem_cons_of_mem _ found, written⟩

theorem not_mem_tagContent (spec : Spec) : '<' ∉ spec.tagContent.toList := by
  have encoded : '<' ∉ spec.encoded.toList := Text.Base64.not_mem_encodeString rfl _
  have escaped (text : String) : '<' ∉ (Text.Html.escaped text).toList := by
    rw [Text.Html.escaped, String.toList_ofList]
    exact Text.Html.not_mem_escape (by decide) text.toList
  unfold tagContent
  simp only [String.toList_append, List.mem_append, escaped, encoded]
  decide

theorem head?_tagContent (spec : Spec) : spec.tagContent.toList.head? = some 'd' := by
  unfold tagContent
  simp only [String.toList_append, List.append_assoc]
  rfl

theorem toList_element (spec : Spec) :
    spec.element.toList = spec.startTag ++ "</div>".toList := by
  have opening : "<div class=\"qz-leaflet\" id=\"".toList =
      '<' :: "div class=\"qz-leaflet\" id=\"".toList := by simp
  have closing : "\"></div>".toList = "\"".toList ++ '>' :: "</div>".toList := by simp
  unfold element startTag tagContent
  simp only [String.toList_append, opening, closing, List.cons_append, List.nil_append,
    List.append_assoc]

theorem container_eq (spec : Spec) :
    spec.container = "\n".intercalate (spec.element :: (spec.infoLines ++ [scriptClosing])) := by
  simp only [container, infoLines, pageLines, List.cons_append, List.nil_append, List.append_assoc]

theorem initScript_eq (spec : Spec) (scale : Scale) :
    spec.initScript scale = "\n".intercalate (spec.drawingLines scale ++ [scriptClosing]) := by
  unfold initScript drawingLines targetLine centerLine zoomLine
  rfl

end MapBlocks.Map.Spec
