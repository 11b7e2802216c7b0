import MapBlocks.Proofs.MapFreeTrees

/-!
# Maps of two languages

Map blocks of two languages do not get in each other's way, as long as none takes
its neighbour with it.  Showing the maps of one language then keeps the blocks of
the other, at any depth, and adds none.  So a document may be rewritten for the
two languages in either order; only the order of the warnings tells the runs
apart.
-/

namespace MapBlocks.Transform

open Markdown (Node)

section Append

variable {settings : Settings} (keeps : settings.consumesFollowing = false)

include keeps

theorem afterBlock_of_keeps (following : List Node) :
    afterBlock settings following = following := by
  simp [afterBlock, keeps]

/-- Where no neighbour is taken, every sibling is shown by itself. -/
theorem shownSiblings_append (left right : List Node) :
    shownSiblings settings (left ++ right) =
      shownSiblings settings left ++ shownSiblings settings right := by
  induction left with
  | nil => rfl
  | cons node rest induction =>
      rw [List.cons_append]
      cases found : mapText? settings node with
      | none =>
          rw [shownSiblings_of_other found, shownSiblings_of_other found, induction,
            List.cons_append]
      | some text =>
          rw [shownSiblings_of_block found, shownSiblings_of_block found,
            afterBlock_of_keeps keeps, afterBlock_of_keeps keeps, induction, List.append_assoc]

theorem metSiblings_append (left right : List Node) :
    metSiblings settings (left ++ right) =
      metSiblings settings left ++ metSiblings settings right := by
  induction left with
  | nil => rfl
  | cons node rest induction =>
      rw [List.cons_append]
      cases found : mapText? settings node with
      | none =>
          rw [metSiblings_of_other found, metSiblings_of_other found, induction,
            List.append_assoc]
      | some text =>
          rw [metSiblings_of_block found, metSiblings_of_block found,
            afterBlock_of_keeps keeps, afterBlock_of_keeps keeps, induction, List.cons_append]

end Append

/-- No code block is written in two languages. -/
theorem mapText?_eq_none_of_apart
    {first second : Settings} (apart : lowerCase first.language ≠ lowerCase second.language)
    {node : Node} {text : String} (block : mapText? first node = some text) :
    mapText? second node = none := by
  obtain ⟨language, info, position, rfl, same⟩ := mapText?_eq_some_iff.mp block
  rw [mapText?, if_neg (same ▸ apart)]

theorem metNode_of_block
    {settings others : Settings} {node : Node} {text : String}
    (block : mapText? settings node = some text) : metNode others node = [] := by
  obtain ⟨language, info, position, rfl, -⟩ := mapText?_eq_some_iff.mp block
  rfl

theorem position?_shownNode (settings : Settings) (node : Node) :
    (shownNode settings node).position? = node.position? := by
  cases node <;> rfl

/-- Showing the maps of one language and then those of another comes to the same as
the other way round, and shows every block of the other language that was there. -/
structure Independent (first second : Settings) (nodes : List Node) : Prop where
  shown : shownSiblings second (shownSiblings first nodes) =
    shownSiblings first (shownSiblings second nodes)
  met : metSiblings second (shownSiblings first nodes) = metSiblings second nodes

namespace Independent

variable {first second : Settings}

theorem nil : Independent first second [] := ⟨rfl, rfl⟩

/-- What holds of the children of a node holds below the node. -/
theorem below {node : Node}
    (inChildren : ∀ children, node.children? = some children → Independent first second children) :
    shownNode second (shownNode first node) = shownNode first (shownNode second node) ∧
      metNode second (shownNode first node) = metNode second node := by
  cases node with
  | container kind children position =>
      obtain ⟨shown, met⟩ := inChildren children rfl
      simp only [shownNode, metNode, shown, met, and_self]
  | leaf kind position => exact ⟨rfl, rfl⟩
  | unknown kind children position fields =>
      cases children with
      | none => exact ⟨rfl, rfl⟩
      | some children =>
          obtain ⟨shown, met⟩ := inChildren children rfl
          simp only [shownNode, shownOptional, metNode, metOptional, shown, met, and_self]

/-- A node that is no block of either language stays, with what is shown below it. -/
theorem cons_of_other {node : Node} {rest : List Node}
    (firstOther : mapText? first node = none) (secondOther : mapText? second node = none)
    (inChildren : ∀ children, node.children? = some children → Independent first second children)
    (inRest : Independent first second rest) : Independent first second (node :: rest) := by
  obtain ⟨shown, met⟩ := below inChildren
  have thenSecond : mapText? second (shownNode first node) = none := by
    rw [mapText?_shownNode, secondOther]
  have thenFirst : mapText? first (shownNode second node) = none := by
    rw [mapText?_shownNode, firstOther]
  constructor
  · rw [shownSiblings_of_other firstOther, shownSiblings_of_other thenSecond,
      shownSiblings_of_other secondOther, shownSiblings_of_other thenFirst, shown, inRest.shown]
  · rw [shownSiblings_of_other firstOther, metSiblings_of_other thenSecond,
      metSiblings_of_other secondOther, met, inRest.met]

section Blocks

variable {node : Node} {rest : List Node} {text : String}
  (apart : lowerCase first.language ≠ lowerCase second.language)
  (keepsFirst : first.consumesFollowing = false) (keepsSecond : second.consumesFollowing = false)
  (inRest : Independent first second rest)

include apart keepsFirst keepsSecond inRest

/-- The map of a block of the first language holds nothing for the second. -/
theorem cons_of_first (block : mapText? first node = some text) :
    Independent first second (node :: rest) := by
  have other := mapText?_eq_none_of_apart apart block
  have still : mapText? first (shownNode second node) = some text := by
    rw [mapText?_shownNode, block]
  obtain ⟨kept, unmet⟩ := (mapFree_mapNodes second first text).fixed
  constructor
  · rw [shownSiblings_of_block block, afterBlock_of_keeps keepsFirst,
      shownSiblings_append keepsSecond, kept, inRest.shown, shownSiblings_of_other other,
      shownSiblings_of_block still, afterBlock_of_keeps keepsFirst]
  · rw [shownSiblings_of_block block, afterBlock_of_keeps keepsFirst,
      metSiblings_append keepsSecond, unmet, inRest.met, metSiblings_of_other other,
      metNode_of_block block]

/-- A block of the second language is still there when the first has been shown. -/
theorem cons_of_second (block : mapText? second node = some text) :
    Independent first second (node :: rest) := by
  have other := mapText?_eq_none_of_apart apart.symm block
  have still : mapText? second (shownNode first node) = some text := by
    rw [mapText?_shownNode, block]
  have kept := (mapFree_mapNodes first second text).fixed.1
  constructor
  · rw [shownSiblings_of_other other, shownSiblings_of_block still,
      afterBlock_of_keeps keepsSecond, inRest.shown, shownSiblings_of_block block,
      afterBlock_of_keeps keepsSecond, shownSiblings_append keepsFirst, kept]
  · rw [shownSiblings_of_other other, metSiblings_of_block still,
      afterBlock_of_keeps keepsSecond, inRest.met, metSiblings_of_block block,
      afterBlock_of_keeps keepsSecond, position?_shownNode]

end Blocks

end Independent

theorem independent_of_apart
    {first second : Settings} (apart : lowerCase first.language ≠ lowerCase second.language)
    (keepsFirst : first.consumesFollowing = false) (keepsSecond : second.consumesFollowing = false)
    (nodes : List Node) : Independent first second nodes := by
  induction nodes using visit_induction first with
  | nil => exact Independent.nil
  | other node rest other inChildren inRest =>
      cases found : mapText? second node with
      | none => exact Independent.cons_of_other other found inChildren inRest
      | some text => exact Independent.cons_of_second apart keepsFirst keepsSecond inRest found
  | block node rest text block inRest =>
      rw [afterBlock_of_keeps keepsFirst] at inRest
      exact Independent.cons_of_first apart keepsFirst keepsSecond inRest block

section

variable (diagnose : String → String)

/-- What is left of a document after two runs of the transform. -/
theorem execute_two (first second : Settings) (state : State) :
    Pipeline.execute [mapBlocks diagnose first, mapBlocks diagnose second] state =
      (⟨state.document.withChildren
          (shownSiblings second (shownSiblings first state.document.children)),
        accounted diagnose
          (accounted diagnose state.context (metSiblings first state.document.children))
          (metSiblings second (shownSiblings first state.document.children))⟩, .ok ()) := by
  simp only [Pipeline.execute, mapBlocks_run]
  rfl

/-- Blocks of two languages that take no neighbour may be rewritten in either order:
the document and the number of maps are the same, and so are the warnings but for
their order. -/
theorem languages_in_either_order
    (first second : Settings)
    (keepsFirst : first.consumesFollowing = false) (keepsSecond : second.consumesFollowing = false)
    (apart : lowerCase first.language ≠ lowerCase second.language) (state : State) :
    let there := Pipeline.execute [mapBlocks diagnose first, mapBlocks diagnose second] state
    let back := Pipeline.execute [mapBlocks diagnose second, mapBlocks diagnose first] state
    (there.2 = .ok () ∧ back.2 = .ok ()) ∧
    there.1.document = back.1.document ∧
    there.1.context.input = back.1.context.input ∧
    there.1.context.mapsRendered = back.1.context.mapsRendered ∧
    there.1.context.warnings.Perm back.1.context.warnings := by
  intro there back
  let nodes := state.document.children
  have forth := independent_of_apart apart keepsFirst keepsSecond nodes
  have reverse := independent_of_apart apart.symm keepsSecond keepsFirst nodes
  have thereEq : there = _ := execute_two diagnose first second state
  have backEq : back = _ := execute_two diagnose second first state
  rw [forth.met] at thereEq
  rw [reverse.met, reverse.shown] at backEq
  rw [thereEq, backEq]
  refine ⟨⟨rfl, rfl⟩, rfl, rfl, ?_, ?_⟩
  · simp only [accounted, UInt64.add_assoc]
    rw [UInt64.add_comm (UInt64.ofNat _)]
  · simp only [accounted, List.append_assoc]
    exact List.perm_append_comm.append_left _

end

/-- Broken blocks of both languages, one of them in a quotation before a block of
the other. -/
theorem languages_in_either_order_in_quotation :
    let first := { Settings.default with consumesFollowing := false }
    let second := { Settings.default with language := "Chart", consumesFollowing := false }
    let quotation :=
      Node.blockquote [.code (some "CHART") "id: [oops", .code (some "LeafLet") "lat: 1"]
    let state : State :=
      ⟨.ofNodes "" [quotation, .code (some "leaflet") "id: [oops", .text "slot"], .start none⟩
    let diagnose := fun _ => "while parsing a flow sequence, expected ',' or ']'"
    let there := Pipeline.execute [mapBlocks diagnose first, mapBlocks diagnose second] state
    let back := Pipeline.execute [mapBlocks diagnose second, mapBlocks diagnose first] state
    (first.consumesFollowing = false ∧ second.consumesFollowing = false ∧
      lowerCase first.language ≠ lowerCase second.language) ∧
    (there.2 = .ok () ∧ back.2 = .ok ()) ∧
    there.1.document = back.1.document ∧
    there.1.context.input = back.1.context.input ∧
    there.1.context.mapsRendered = back.1.context.mapsRendered ∧
    there.1.context.warnings.Perm back.1.context.warnings := by
  intro first second quotation state diagnose there back
  have apart : lowerCase first.language ≠ lowerCase second.language := by decide
  exact ⟨⟨rfl, rfl, apart⟩,
    languages_in_either_order diagnose first second rfl rfl apart state⟩

end MapBlocks.Transform
