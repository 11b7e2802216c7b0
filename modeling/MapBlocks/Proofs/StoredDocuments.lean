import MapBlocks.Markdown.Document
import MapBlocks.Proofs.WrittenNodes

/-!
# Stored documents

A document is read back from its text: its source, its tree with all positions, and
its metadata in their order.
-/

namespace MapBlocks.Markdown

open Transform

/-- The data as they are kept: no key is repeated, and values are in canonical form. -/
structure Metadata.Kept (data : Metadata) : Prop where
  distinct : data.keys.Nodup
  canonical : ∀ entry ∈ data.entries, entry.2.canonical = entry.2

theorem Metadata.Kept.ofJson?_toJson {data : Metadata} (kept : data.Kept) :
    ofJson? data.toJson = some data := by
  have collected : ∀ rest earlier : List (String × Json),
      ((earlier ++ rest).map Prod.fst).Nodup →
      (∀ entry ∈ rest, entry.2.canonical = entry.2) →
      rest.foldl (fun entries entry => append entries entry.1 entry.2.canonical) earlier =
        earlier ++ rest := by
    intro rest
    induction rest with
    | nil => intro earlier _ _; rw [List.foldl_nil, List.append_nil]
    | cons entry rest induction =>
        intro earlier distinct canonical
        obtain ⟨key, value⟩ := entry
        rw [List.forall_mem_cons] at canonical
        have shifted : earlier ++ (key, value) :: rest = earlier ++ [(key, value)] ++ rest := by
          rw [List.append_assoc, List.singleton_append]
        have new : key ∉ earlier.map Prod.fst := by
          rw [List.map_append, List.map_cons] at distinct
          intro found
          exact (List.nodup_append.mp distinct).2.2 key found key List.mem_cons_self rfl
        have step : append earlier key value.canonical = earlier ++ [(key, value)] := by
          rw [canonical.1, append_of_new new]
        rw [shifted] at distinct ⊢
        change rest.foldl _ (append earlier key value.canonical) = _
        rw [step, induction _ distinct canonical.2]
  have whole := collected data.entries [] kept.distinct kept.canonical
  rw [List.nil_append] at whole
  rw [toJson, ofJson?]
  exact congrArg (fun entries => some (Metadata.mk entries)) whole

namespace Root

def entries (root : Root) : List (String × Option Json) :=
  [("children", some (.arr (Node.listToJson root.children))),
    ("position", root.position.map Position.toJson)]

theorem distinct_entries (root : Root) : (root.entries.map Prod.fst).Nodup :=
  show fieldNames.Nodup by decide

theorem ofJson?_toJson
    (root : Root) (again : Node.listOfItems? (Node.listToJson root.children) = some root.children) :
    ofJson? root.toJson = some root := by
  have distinct := root.distinct_entries
  have record : Json.record? fieldNames root.toJson = some (Json.present root.entries) :=
    Json.record?_present distinct
  have children : Json.defaulted? (Json.present root.entries) "children" [] Node.listOfJson? =
      some root.children := by
    rw [Json.defaulted?_of_lookup (Json.lookup?_present distinct List.mem_cons_self)]
    exact again
  have position : Json.optional? (Json.present root.entries) "position" Position.ofJson? =
      some root.position := by
    apply Json.optional?_of_lookup? Position.toJson
    · exact Json.lookup?_present distinct (List.mem_cons_of_mem _ List.mem_cons_self)
    · rfl
    · intro value _
      exact value.ofJson?_toJson
  simp only [ofJson?, Option.bind_eq_bind, Option.bind_eq_some_iff]
  exact ⟨_, record, _, children, _, position, rfl⟩

/-- The parts of a root's text that are read. -/
def outline : Json.Outline := .record [("children", .whole), ("position", Position.outline)]

theorem covers_toJson (root : Root) : outline.Covers root.toJson := by
  apply Json.Outline.covers_present root.entries
    fun name => if name = "position" then Position.outline else .whole
  · simp [entries, Json.lookup?]
  · simp only [entries, List.forall_mem_cons, Option.mem_some_iff, forall_eq']
    refine ⟨.whole _, ?_, List.forall_mem_nil _⟩
    intro value written
    obtain ⟨position, _, rfl⟩ := Option.map_eq_some_iff.mp written
    exact position.covers_toJson

end Root

namespace Document

def entries (document : Document) : List (String × Option Json) :=
  [("source", some (.str document.source)), ("tree", some document.tree.toJson),
    ("data", some document.data.toJson)]

theorem distinct_entries (document : Document) : (document.entries.map Prod.fst).Nodup :=
  show fieldNames.Nodup by decide

theorem covers_toJson (document : Document) : outline.Covers document.toJson := by
  have named : outline = .record [("source", .whole), ("tree", Root.outline), ("data", .whole)] :=
    rfl
  rw [named]
  apply Json.Outline.covers_present document.entries
    fun name => if name = "tree" then Root.outline else .whole
  · simp [entries, Json.lookup?]
  · simp only [entries, List.forall_mem_cons, Option.mem_some_iff, forall_eq']
    exact ⟨.whole _, document.tree.covers_toJson, .whole _, List.forall_mem_nil _⟩

theorem ofJson?_toJson
    (document : Document)
    (again : Node.listOfItems? (Node.listToJson document.children) = some document.children)
    (data : document.data.Kept) : ofJson? document.toJson = some document := by
  have distinct := document.distinct_entries
  have record : Json.record? fieldNames document.toJson =
      some (Json.present document.entries) :=
    Json.record?_present distinct
  have source : Json.defaulted? (Json.present document.entries) "source" "" Json.string? =
      some document.source :=
    Json.defaulted?_of_lookup (Json.lookup?_present distinct List.mem_cons_self) _ _
  have tree : Json.required? (Json.present document.entries) "tree" Root.ofJson? =
      some document.tree := by
    rw [Json.required?_present distinct (List.mem_cons_of_mem _ List.mem_cons_self)]
    exact document.tree.ofJson?_toJson again
  have data : Json.defaulted? (Json.present document.entries) "data" .empty Metadata.ofJson? =
      some document.data := by
    have found : Json.lookup? "data" (Json.present document.entries) =
        some document.data.toJson :=
      Json.lookup?_present distinct (by simp [entries])
    rw [Json.defaulted?_of_lookup found]
    exact data.ofJson?_toJson
  simp only [ofJson?, Option.bind_eq_bind, Option.bind_eq_some_iff]
  exact ⟨_, record, _, source, _, tree, _, data, rfl⟩

theorem numbersReadBack_toJson
    (document : Document)
    (nodes : ∀ node, Reachable node document.children → (Json.obj node.extras).NumbersReadBack)
    (data : document.data.toJson.NumbersReadBack) : document.toJson.NumbersReadBack := by
  have tree : document.tree.toJson.NumbersReadBack := by
    apply Json.numbersReadBack_present document.tree.entries
    simp only [Root.entries, List.forall_mem_cons, Option.mem_some_iff, forall_eq']
    exact ⟨Node.numbersReadBack_listToJson document.children nodes,
      Json.numbersReadBack_of_mem_map Position.numbersReadBack_toJson, List.forall_mem_nil _⟩
  apply Json.numbersReadBack_present document.entries
  simp only [entries, List.forall_mem_cons, Option.mem_some_iff, forall_eq']
  exact ⟨Json.numbersReadBack_str _, tree, data, List.forall_mem_nil _⟩

/-- A document, whose free data are as they are kept, is read back from its text if that
is not nested too deep, no node of unknown kind in its tree has the name of a described
kind, and the numbers in the free data read back from their texts. -/
theorem ofText?_jsonText
    (document : Document)
    (kept : ∀ node, Reachable node document.children → node.Kept)
    (undescribed : ∀ node, Reachable node document.children → node.isKnown = false →
      node.typeName ∉ Node.knownNames)
    (data : document.data.Kept)
    (nested : document.toJson.nesting ≤ 127)
    (nodeNumbers : ∀ node, Reachable node document.children →
      (Json.obj node.extras).NumbersReadBack)
    (dataNumbers : document.data.toJson.NumbersReadBack) :
    ofText? document.jsonText = some document := by
  have unfit : ∀ node, Reachable node document.children → node.fits = false := by
    intro node reached
    cases known : node.isKnown with
    | true => exact Node.fits_of_isKnown known
    | false => exact Node.fits_of_unknown_name (undescribed node reached known)
  have again := (Node.listOfItems?_listToJson_iff document.children kept).mpr unfit
  have read : Json.parseOutline? outline document.jsonText = some document.toJson :=
    Json.parseOutline?_text_of_covers document.covers_toJson nested
      (document.numbersReadBack_toJson nodeNumbers dataNumbers)
  rw [ofText?, read, Option.bind_some]
  exact document.ofJson?_toJson again data

/-- A footnote with an empty paragraph, a formula without children whose fields hold a
number that is not whole, and metadata that are not in alphabetical order. -/
theorem ofText?_jsonText_of_footnote :
    let start : Point := ⟨1, 1, some 0⟩
    let stop : Point := ⟨2, 18446744073709551615, none⟩
    let formula := Node.unknown "math" none none [("meta", .obj [("scale", .num (.real 0.5))])]
    let footnote := Node.unknown "footnoteDefinition" (some [.paragraph []]) (some ⟨start, stop⟩)
      [("identifier", .str "a")]
    let document : Document :=
      ⟨"[^a]: \n$x$", ⟨[footnote, formula], some ⟨start, stop⟩⟩,
        ⟨[("words", .num (.int 2)), ("title", .str "Notes")]⟩⟩
    (Reachable (.paragraph []) document.children ∧ document.toJson.nesting ≤ 127) ∧
      ofText? document.jsonText = some document := by
  intro start stop formula footnote document
  have nested : document.toJson.nesting ≤ 127 := by decide
  have everywhere {holds : Node → Prop} (inFootnote : holds footnote)
      (inParagraph : holds (.paragraph [])) (inFormula : holds formula) :
      ∀ node, Reachable node document.children → holds node := by
    have paragraph : ∀ node, Reachable node [.paragraph []] → holds node := by
      refine forall_reachable_singleton_iff.mpr ⟨inParagraph, ?_⟩
      intro _ held
      cases held
      exact forall_reachable_nil
    have siblings : document.children = [footnote, formula] := rfl
    rw [siblings, forall_reachable_cons_iff, forall_reachable_singleton_iff]
    refine ⟨⟨inFootnote, ?_⟩, inFormula, ?_⟩
    · intro _ held
      cases held
      exact paragraph
    · intro _ held
      cases held
  have half : Json.Number.ReadsBack (.real 0.5) := by
    have spelled : (Json.Number.real 0.5).numeral? = some ⟨false, ['0'], ['5'], none⟩ := by
      decide +kernel
    have read : Json.Numeral.float? ⟨false, ['0'], ['5'], none⟩ = some 0.5 := by decide +kernel
    rw [Json.Number.readsBack_iff, spelled, Option.bind_some, Json.Numeral.number?]
    simp only [Json.Numeral.int?]
    rw [read]
    rfl
  refine ⟨⟨?_, nested⟩, ofText?_jsonText document ?_ ?_ ?_ nested ?_ ?_⟩
  · exact .deeper List.mem_cons_self rfl (.here List.mem_cons_self)
  · apply everywhere
    · exact ⟨by simp [footnote, Node.extras], rfl⟩
    · exact Node.kept_of_isKnown rfl
    · exact ⟨by simp [formula, Node.extras], rfl⟩
  · apply everywhere
    · simp [footnote, Node.typeName, Node.knownNames]
    · intro unknown
      cases unknown
    · simp [formula, Node.typeName, Node.knownNames]
  · exact ⟨by simp [document, Metadata.keys], by simp [document, Json.canonical]⟩
  · apply everywhere
    · simp [footnote, Node.extras, Json.numbersReadBack_obj_iff, Json.numbersReadBack_str]
    · simp [Node.paragraph, Node.extras, Json.numbersReadBack_obj_iff]
    · simp [formula, Node.extras, Json.numbersReadBack_obj_iff, Json.numbersReadBack_num_iff, half]
  · apply Json.numbersReadBack_obj_iff.mpr
    simp only [document, List.forall_mem_cons]
    refine ⟨?_, Json.numbersReadBack_str _, List.forall_mem_nil _⟩
    apply Json.numbersReadBack_num_iff.mpr
    apply Json.Number.readsBack_int <;> decide

end Document

end MapBlocks.Markdown
