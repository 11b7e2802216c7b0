import MapBlocks.Proofs.BlockAccounting
import MapBlocks.Proofs.ReachableNodes

/-!
# Trees without map blocks

After the transform no map block is left, at any depth.  A tree without map
blocks is what the transform leaves as it is, context included, so a second run
changes nothing.  This holds for any settings with the same language in whatever
letter case, since nothing else of them decides what a map block is.
-/

namespace MapBlocks.Transform

open Markdown (Node Leaf Position)

/-- No map block stands among siblings or below them. -/
def MapFree (settings : Settings) (nodes : List Node) : Prop :=
  ∀ found, Reachable found nodes → mapText? settings found = none

namespace MapFree

variable {settings : Settings}

theorem nil : MapFree settings [] := forall_reachable_nil

theorem append_iff {left right : List Node} :
    MapFree settings (left ++ right) ↔
      MapFree settings left ∧ MapFree settings right := forall_reachable_append_iff

theorem singleton_iff {node : Node} :
    MapFree settings [node] ↔
      mapText? settings node = none ∧
        ∀ children, node.children? = some children → MapFree settings children :=
  forall_reachable_singleton_iff

theorem cons_iff {node : Node} {rest : List Node} :
    MapFree settings (node :: rest) ↔
      (mapText? settings node = none ∧
        ∀ children, node.children? = some children → MapFree settings children) ∧
      MapFree settings rest := forall_reachable_cons_iff

end MapFree

/-- Maps are shown by raw HTML, which is no map block of any language and holds none. -/
theorem mapFree_mapNodes (others settings : Settings) (text : String) :
    MapFree others (mapNodes settings text) := by
  have html : ∀ value, MapFree others [Node.html value] := by
    intro value
    refine MapFree.singleton_iff.mpr ⟨rfl, ?_⟩
    intro children holds
    cases holds
  exact MapFree.append_iff.mpr ⟨html _, html _⟩

theorem mapText?_shownNode (others settings : Settings) (node : Node) :
    mapText? others (shownNode settings node) = mapText? others node := by
  cases node <;> rfl

theorem children?_shownNode (settings : Settings) (node : Node) :
    (shownNode settings node).children? =
      node.children?.map (shownSiblings settings) := by
  cases node with
  | container kind children position => rfl
  | leaf kind position => rfl
  | unknown kind children position fields => cases children <;> rfl

theorem mapFree_shownSiblings (settings : Settings) (nodes : List Node) :
    MapFree settings (shownSiblings settings nodes) := by
  induction nodes using visit_induction settings with
  | nil => exact MapFree.nil
  | other node rest other inChildren inRest =>
      rw [shownSiblings_of_other other]
      refine MapFree.cons_iff.mpr ⟨⟨?_, ?_⟩, inRest⟩
      · rw [mapText?_shownNode, other]
      · intro children holds
        rw [children?_shownNode] at holds
        obtain ⟨inner, within, rfl⟩ := Option.map_eq_some_iff.mp holds
        exact inChildren inner within
  | block node rest text block inRest =>
      rw [shownSiblings_of_block block]
      exact MapFree.append_iff.mpr ⟨mapFree_mapNodes settings settings text, inRest⟩

/-- A tree without map blocks shows as it is, and a scan of it meets no block. -/
theorem MapFree.fixed {settings : Settings} {nodes : List Node} :
    MapFree settings nodes →
      shownSiblings settings nodes = nodes ∧ metSiblings settings nodes = [] := by
  induction nodes using visit_induction settings with
  | nil =>
      intro free
      exact ⟨rfl, rfl⟩
  | other node rest other inChildren inRest =>
      intro free
      obtain ⟨⟨_, below⟩, freeRest⟩ := MapFree.cons_iff.mp free
      have inNode : shownNode settings node = node ∧ metNode settings node = [] := by
        rw [shownNode_eq, metNode_eq]
        cases holds : node.children? with
        | none => exact ⟨rfl, rfl⟩
        | some children =>
            obtain ⟨shown, met⟩ := inChildren children holds (below children holds)
            refine ⟨?_, met⟩
            simp only [shown]
            exact node.withChildren_of_children? holds
      rw [shownSiblings_of_other other, metSiblings_of_other other, inNode.1, inNode.2,
        (inRest freeRest).1, (inRest freeRest).2]
      exact ⟨rfl, rfl⟩
  | block node rest text block inRest =>
      intro free
      obtain ⟨⟨other, _⟩, _⟩ := MapFree.cons_iff.mp free
      rw [block] at other
      cases other

theorem mapText?_congr
    {settings others : Settings}
    (same : lowerCase others.language = lowerCase settings.language) (node : Node) :
    mapText? others node = mapText? settings node := by
  unfold mapText?
  rw [same]

section

variable (diagnose : String → String)

/-- The transform has nothing to do where no map block is. -/
theorem mapBlocks_run_of_mapFree
    {settings : Settings} {state : State}
    (free : MapFree settings state.document.children) :
    (mapBlocks diagnose settings).run state = (state, .ok ()) := by
  rw [mapBlocks_run, free.fixed.1, free.fixed.2, accounted_nil]
  rfl

theorem mapFree_mapBlocks (settings : Settings) (state : State) :
    MapFree settings ((mapBlocks diagnose settings).run state).1.document.children := by
  rw [mapBlocks_run]
  exact mapFree_shownSiblings settings state.document.children

/-- After the transform no code block is left in the language of its settings, and
to run it again, with any settings for that language, changes nothing. -/
theorem mapBlocks_leaves_no_block (settings : Settings) (state : State) :
    let after := ((mapBlocks diagnose settings).run state).1
    (∀ language info value position,
      Reachable (.leaf (.code (some language) info value) position)
        after.document.children →
      lowerCase language ≠ lowerCase settings.language) ∧
    ∀ others : Settings, lowerCase others.language = lowerCase settings.language →
      ∀ context,
        (mapBlocks diagnose others).run ⟨after.document, context⟩ =
          (⟨after.document, context⟩, .ok ()) := by
  intro after
  have free : MapFree settings after.document.children :=
    mapFree_mapBlocks diagnose settings state
  constructor
  · intro language info value position reached same
    have block : mapText? settings _ = some value :=
      mapText?_eq_some_iff.mpr ⟨language, info, position, rfl, same⟩
    rw [free _ reached] at block
    cases block
  · intro others same context
    apply mapBlocks_run_of_mapFree
    intro found reached
    rw [mapText?_congr same]
    exact free found reached

end

/-- A code block in another language stays, and a second run for the same language
in other letters, which would spare the sibling of a block, finds nothing to do. -/
theorem mapBlocks_leaves_no_block_in_quotation :
    let rust := Node.code (some "rust") "fn main() \x7b\x7d"
    let quotation := Node.blockquote [.code (some "leaflet") "id: m", .text "slot"]
    let others :=
      { Settings.default with language := "LeafLet", consumesFollowing := false }
    let after :=
      ((mapBlocks (fun _ => "") .default).run ⟨.ofNodes "" [rust, quotation], .start none⟩).1
    (Reachable rust after.document.children ∧
      lowerCase "rust" ≠ lowerCase Settings.default.language) ∧
    lowerCase others.language = lowerCase Settings.default.language ∧
      (mapBlocks (fun _ => "") others).run ⟨after.document, .start none⟩ =
        (⟨after.document, .start none⟩, .ok ()) := by
  intro rust quotation others after
  have reached : Reachable rust after.document.children := by
    have shown : after.document.children =
        shownSiblings .default [rust, quotation] := by
      simp only [after, mapBlocks_run]
      rfl
    rw [shown, shownSiblings_of_other (by decide)]
    exact .here List.mem_cons_self
  have same : lowerCase others.language = lowerCase Settings.default.language := by
    decide
  obtain ⟨noBlock, settled⟩ := mapBlocks_leaves_no_block (fun _ => "") .default
    ⟨.ofNodes "" [rust, quotation], .start none⟩
  exact ⟨⟨reached, noBlock "rust" none _ none reached⟩, same,
    settled others same (.start none)⟩

end MapBlocks.Transform
