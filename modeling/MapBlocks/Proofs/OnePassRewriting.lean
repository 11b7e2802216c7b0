import MapBlocks.Proofs.SiblingTraversal

/-!
# Rewriting in one pass

The transform scans a list of siblings, collects edits and splices them in when
the scan is over.  `shownSiblings` puts the maps in their places while it walks
along the list, once.  The two agree: the edits of a scan, applied to what the
scan left of the list, give the siblings as they are shown.
-/

namespace MapBlocks.Transform

open Markdown (Node)

/-- The nodes that show the map which the text of a block describes. -/
def mapNodes (settings : Settings) (text : String) : List Node :=
  (Map.Spec.ofText settings.assets text).nodes settings.scale

mutual

/-- A node with the maps below it shown. -/
def shownNode (settings : Settings) : Node → Node
  | .container kind children position =>
      .container kind (shownSiblings settings children) position
  | .leaf kind position => .leaf kind position
  | .unknown kind children position fields =>
      .unknown kind (shownOptional settings children) position fields

/-- The children of a node that may have none, with their maps shown. -/
def shownOptional (settings : Settings) : Option (List Node) → Option (List Node)
  | none => none
  | some children => some (shownSiblings settings children)

/-- Siblings with their maps shown: a map block gives way to its map, together
with the next sibling if the settings say so, and any other node stays. -/
def shownSiblings (settings : Settings) : List Node → List Node
  | [] => []
  | node :: rest =>
      match mapText? settings node with
      | none => shownNode settings node :: shownSiblings settings rest
      | some text =>
          mapNodes settings text ++
            match rest with
            | [] => []
            | slot :: others =>
                if settings.consumesFollowing then shownSiblings settings others
                else shownSiblings settings (slot :: others)

end

theorem shownNode_eq (settings : Settings) (node : Node) :
    shownNode settings node =
      match node.children? with
      | none => node
      | some children => node.withChildren (shownSiblings settings children) := by
  cases node with
  | container kind children position => rfl
  | leaf kind position => rfl
  | unknown kind children position fields => cases children <;> rfl

theorem shownSiblings_of_other
    {settings : Settings} {node : Node} (other : mapText? settings node = none)
    (rest : List Node) :
    shownSiblings settings (node :: rest) =
      shownNode settings node :: shownSiblings settings rest := by
  rw [shownSiblings.eq_def]
  simp only [other]

theorem shownSiblings_of_block
    {settings : Settings} {node : Node} {text : String}
    (block : mapText? settings node = some text) (rest : List Node) :
    shownSiblings settings (node :: rest) =
      mapNodes settings text ++ shownSiblings settings (afterBlock settings rest) := by
  rw [shownSiblings.eq_def]
  simp only [block]
  cases rest with
  | nil => simp [afterBlock, shownSiblings]
  | cons slot others =>
      cases consumes : settings.consumesFollowing <;> simp [afterBlock, consumes]

/-- A block is drawn from its text alone. -/
theorem drawBlock_nodes
    (diagnose : String → String) (settings : Settings) (context : Context) (node : Node)
    (text : String) :
    (drawBlock diagnose settings context node text).1 = mapNodes settings text := by
  unfold drawBlock readBlock mapNodes Map.Spec.ofText
  rw [Payload.parseOrEmpty_eq_parse diagnose]
  cases Payload.parse diagnose text <;> rfl

/-- The edits of a scan, applied behind any siblings that come before it, leave
those siblings as they are and show the scanned ones. -/
def EditsShow (diagnose : String → String) (settings : Settings) (nodes : List Node) : Prop :=
  ∀ (before : List Node) (context : Context),
    let scanned := scanSiblings diagnose settings before.length context nodes
    Edit.applyAll? scanned.edits (before ++ scanned.nodes) =
      some (before ++ shownSiblings settings nodes)

namespace EditsShow

variable {diagnose : String → String} {settings : Settings}

/-- A whole list has no siblings before it. -/
theorem applyAll?_eq {nodes : List Node} (shows : EditsShow diagnose settings nodes)
    (context : Context) :
    let scanned := scanSiblings diagnose settings 0 context nodes
    Edit.applyAll? scanned.edits scanned.nodes =
      some (shownSiblings settings nodes) :=
  shows [] context

theorem rewriteSiblings_eq {nodes : List Node} (shows : EditsShow diagnose settings nodes)
    (context : Context) :
    (rewriteSiblings diagnose settings context nodes).1 = shownSiblings settings nodes := by
  have spliced := shows.applyAll?_eq context
  simp only at spliced
  simp [rewriteSiblings, Scanned.apply, spliced]

theorem rewriteNode_eq_shownNode {node : Node}
    (below : ∀ children, node.children? = some children → EditsShow diagnose settings children)
    (context : Context) :
    (rewriteNode diagnose settings context node).1 = shownNode settings node := by
  rw [rewriteNode_eq, shownNode_eq]
  cases holds : node.children? with
  | none => rfl
  | some children =>
      exact congrArg node.withChildren ((below children holds).rewriteSiblings_eq context)

theorem nil : EditsShow diagnose settings [] := by
  intro before context
  rfl

/-- A node that is kept joins the siblings before the scan. -/
theorem cons_of_other {node : Node} {rest : List Node}
    (other : mapText? settings node = none)
    (below : ∀ children, node.children? = some children → EditsShow diagnose settings children)
    (shows : EditsShow diagnose settings rest) : EditsShow diagnose settings (node :: rest) := by
  intro before context
  have later := shows (before ++ [shownNode settings node])
    (rewriteNode diagnose settings context node).2
  simp only [List.length_append, List.length_singleton, List.append_assoc,
    List.singleton_append] at later
  simp only [scanSiblings_of_other other, shownSiblings_of_other other,
    rewriteNode_eq_shownNode below]
  exact later

/-- The nodes that a block takes join the siblings before the scan.  The edit of
the block is applied last, when everything behind them is already shown. -/
theorem cons_of_block {node : Node} {rest : List Node} {text : String}
    (block : mapText? settings node = some text)
    (shows : EditsShow diagnose settings (afterBlock settings rest)) :
    EditsShow diagnose settings (node :: rest) := by
  intro before context
  let removed := (node :: rest).take (taken settings rest)
  have count : removed.length = taken settings rest :=
    length_take_taken settings node rest
  have later := shows (before ++ removed) (drawBlock diagnose settings context node text).2
  simp only [List.length_append, count, List.append_assoc] at later
  simp only [scanSiblings_of_block block, shownSiblings_of_block block,
    Edit.applyAll?, drawBlock_nodes]
  rw [later, Option.bind_some, ← count]
  exact Edit.applyTo?_append before removed
    (shownSiblings settings (afterBlock settings rest)) (mapNodes settings text)

end EditsShow

theorem editsShow (diagnose : String → String) (settings : Settings) (nodes : List Node) :
    EditsShow diagnose settings nodes := by
  induction nodes using visit_induction settings with
  | nil => exact EditsShow.nil
  | other node rest other inChildren inRest =>
      exact EditsShow.cons_of_other other inChildren inRest
  | block node rest text block inRest => exact EditsShow.cons_of_block block inRest

/-- No splice of a scan starts past the end of its list, and the transform leaves
the children of the root as they are shown, with the code blocks in the language of
the settings as map blocks; it touches nothing else. -/
theorem mapBlocks_shows_siblings
    (diagnose : String → String) (settings : Settings) (state : State) :
    (∀ node text, mapText? settings node = some text ↔ IsMapBlock settings text node) ∧
    (∀ context nodes,
      let scanned := scanSiblings diagnose settings 0 context nodes
      Edit.applyAll? scanned.edits scanned.nodes =
        some (shownSiblings settings nodes)) ∧
    ((mapBlocks diagnose settings).run state).2 = .ok () ∧
    ((mapBlocks diagnose settings).run state).1.document =
      { state.document with
        tree := { state.document.tree with
          children := shownSiblings settings state.document.tree.children } } := by
  refine ⟨fun _ _ => mapText?_eq_some_iff, ?_, rfl, ?_⟩
  · intro context nodes
    exact (editsShow diagnose settings nodes).applyAll?_eq context
  · have shows := editsShow diagnose settings state.document.children
    change state.document.withChildren
      (rewriteSiblings diagnose settings state.context state.document.children).1 = _
    rw [shows.rewriteSiblings_eq]
    rfl

end MapBlocks.Transform
