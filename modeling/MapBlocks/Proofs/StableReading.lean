import Mathlib
import MapBlocks.Proofs.ReadNesting

/-!
# Reading twice

A tree that is stored and read again need not be the same.  A node of unknown kind
may have been made from an object that repeats a field of a known kind, or that has
null for its children, and then its text is read as a node of that kind; and an
empty list of children that was left out is written, one level deeper than the
reader may go.  Nothing else can come between: the tree is the same exactly if its
text is not nested too deep and no such node is in it.
-/

namespace MapBlocks.Markdown.Node

open Transform

theorem ofText?_jsonText_iff_of_kept
    {node : Node} (kept : ∀ found, Reachable found [node] → found.Kept)
    (numbers : ∀ found, Reachable found [node] → (Json.obj found.extras).NumbersReadBack) :
    ofText? node.jsonText = some node ↔
      node.toJson.nesting ≤ 127 ∧ ∀ found, Reachable found [node] → found.fits = false := by
  have parsed := Json.parse?_text_iff (node.numbersReadBack_toJson numbers)
  rw [← node.ofJson?_toJson_iff kept]
  constructor
  · intro stable
    obtain ⟨value, parsedValue, read⟩ := Option.bind_eq_some_iff.mp stable
    -- A text that is nested too deep is not read as anything.
    have nested : node.toJson.nesting ≤ 127 := Json.nesting_le_of_parse?_text parsedValue
    rw [jsonText, parsed.mpr nested] at parsedValue
    cases parsedValue
    exact ⟨nested, read⟩
  · intro shallow
    rw [ofText?, jsonText, parsed.mpr shallow.1, Option.bind_some]
    exact shallow.2

/-- A node that was read is read again from its text exactly if that is not nested too
deep and no node of unknown kind in it has fields that fit a known kind of its name.
So it is if the first text nests at most 126 arrays and objects and each object read
as a node is plain. -/
theorem ofText?_jsonText_iff
    {text : String} {node : Node} (read : ofText? text = some node)
    (numbers : ∀ found, Reachable found [node] → (Json.obj found.extras).NumbersReadBack) :
    (ofText? node.jsonText = some node ↔
      node.toJson.nesting ≤ 127 ∧ ∀ found, Reachable found [node] → found.fits = false) ∧
    ∀ json, Json.parse? text = some json → json.nesting ≤ 126 →
      (∀ members, NodePlace (.obj members) json → Plain members) →
      ofText? node.jsonText = some node := by
  obtain ⟨json, parsed, readJson⟩ := Option.bind_eq_some_iff.mp read
  have kept : ∀ found, Reachable found [node] → found.Kept := by
    intro found reached
    obtain ⟨place, -, readFound⟩ := exists_nodePlace readJson reached
    exact kept_of_ofJson? readFound
  have again := ofText?_jsonText_iff_of_kept kept numbers
  refine ⟨again, ?_⟩
  intro other parsedOther shallow plain
  rw [parsed] at parsedOther
  cases parsedOther
  apply again.mpr
  constructor
  · exact (nesting_toJson_le node readJson).trans (Nat.succ_le_succ shallow)
  · intro found reached
    obtain ⟨place, within, readFound⟩ := exists_nodePlace readJson reached
    apply not_fits_of_ofJson? readFound
    intro members same
    rw [same] at within
    exact plain members within

/-- Below a table, a heading without a depth stays a node of unknown kind. -/
theorem ofText?_jsonText_of_table :
    let heading : Json := .obj [("type", .str "heading"), ("depth", .null)]
    let table : Json := .obj
      [("align", .arr [.str "left", .null]), ("children", .arr [heading]), ("type", .str "table")]
    let node := Node.unknown "table" (some [.unknown "heading" none none [("depth", .null)]]) none
      [("align", .arr [.str "left", .null])]
    (ofText? table.text = some node ∧
      ∀ found, Reachable found [node] → (Json.obj found.extras).NumbersReadBack) ∧
      ofText? node.jsonText = some node := by
  intro heading table node
  have numbers : ∀ found, Reachable found [node] → (Json.obj found.extras).NumbersReadBack := by
    have null : (Json.null).NumbersReadBack := by simp [Json.NumbersReadBack, Json.numbers]
    rw [forall_reachable_singleton_iff]
    constructor
    · simp [node, extras, Json.numbersReadBack_obj_iff, Json.numbersReadBack_arr_iff,
        Json.numbersReadBack_str, null]
    · intro _ held
      cases held
      rw [forall_reachable_singleton_iff]
      constructor
      · simp [extras, Json.numbersReadBack_obj_iff, null]
      · intro _ held
        cases held
  have parsed : Json.parse? table.text = some table := by
    apply (Json.parse?_text_iff _).mpr (by decide)
    simp [table, heading, Json.NumbersReadBack, Json.numbers, Json.numbersOfMembers,
      Json.numbersOfItems]
  have read : ofText? table.text = some node := by
    rw [ofText?, parsed]
    rfl
  have plain : ∀ members, NodePlace (.obj members) table → Plain members := by
    intro members place
    simp only [table] at place
    cases place with
    | whole => exact plain_of_distinct (by simp) (by simp [Json.lookup?])
    | @deeper _ _ _ items _ _ _ list _ listed below =>
        cases list with
        | member children =>
            have only : items = [heading] := by simpa using children
            rw [only, List.mem_singleton] at listed
            rw [listed] at below
            simp only [heading] at below
            cases below with
            | whole => exact plain_of_distinct (by simp) (by simp [Json.lookup?])
            | deeper _ _ list _ _ _ =>
                cases list with
                | member children => exact absurd children (by simp)
  refine ⟨⟨read, numbers⟩, ?_⟩
  exact (ofText?_jsonText_iff read numbers).2 table parsed (by decide) plain

/-- A paragraph whose children are null is read as a node of unknown kind, and from the
text of that node as a paragraph.  Sixty-four paragraphs in each other, of which the
innermost leaves its children out, are read, but not from the text written for them. -/
theorem reading_not_stable :
    let text := "\x7b\"type\":\"paragraph\",\"children\":null\x7d"
    let node := Node.unknown "paragraph" none none []
    let around (json : Json) : Json :=
      .obj [("type", .str "paragraph"), ("children", .arr [json])]
    let nested : Json := around^[63] (.obj [("type", .str "paragraph")])
    let paragraphs : Node := (fun child => .paragraph [child])^[63] (.paragraph [])
    (ofText? text = some node ∧ ofText? node.jsonText = some (.paragraph [])) ∧
      ofText? nested.text = some paragraphs ∧ ofText? paragraphs.jsonText = none := by
  intro text node around nested paragraphs
  have numbers : nested.NumbersReadBack := by
    have none : nested.numbers = [] := by decide +kernel
    simp [Json.NumbersReadBack, none]
  have parsed : Json.parse? nested.text = some nested :=
    (Json.parse?_text_iff numbers).mpr (by decide +kernel)
  have step : ∀ json child, ofJson? json = some child →
      ofJson? (around json) = some (.paragraph [child]) := by
    intro json child read
    let members : List (String × Json) := [("type", .str "paragraph"), ("children", .arr [json])]
    have tag : valuesOf "type" members = [.str "paragraph"] := rfl
    have names : Container.fieldNames? "paragraph" = some [] := rfl
    have children : knownChildren? (memberLists members) = some [child] := by
      simp [members, knownChildren?, memberLists, Json.lookup?, listOfJson?, listOfItems?, read]
    apply ofJson?_obj_eq_some_iff.mpr
    left
    rw [knownOfMembers?_container tag names (by simp [members]), children]
    rfl
  have read : ofJson? nested = some paragraphs := by
    have nest : ∀ n, ofJson? (around^[n] (.obj [("type", .str "paragraph")])) =
        some ((fun child => .paragraph [child])^[n] (.paragraph [])) := by
      intro n
      induction n with
      | zero => rfl
      | succ n induction =>
          rw [Function.iterate_succ_apply', Function.iterate_succ_apply']
          exact step _ _ induction
    exact nest 63
  have deep : ¬paragraphs.toJson.nesting ≤ 127 := by decide +kernel
  refine ⟨⟨by cbv, by cbv⟩, ?_, ?_⟩
  · rw [ofText?, parsed, Option.bind_some, read]
  · cases again : Json.parse? paragraphs.toJson.text with
    | none => rw [ofText?, jsonText, again, Option.bind_none]
    | some value => exact absurd (Json.nesting_le_of_parse?_text again) deep

end MapBlocks.Markdown.Node
