import MapBlocks.Proofs.OnePassRewriting
import MapBlocks.Proofs.SimultaneousEdits

/-!
# Edits of a scan

Edits are applied without a check that they stand in order or stay apart.  Those of a
scan do: each starts at a map block and ends before the next one starts, none runs past
the last sibling, and no map block is left between them.  The list to which they are
applied is as long as the one that was scanned, so that no edit fails.
-/

namespace MapBlocks.Transform

open Markdown (Node)

/-- Edits that take care of the map blocks among siblings, from a place on. -/
structure CoversBlocks
    (settings : Settings) (siblings : List Node) (start : ℕ) (edits : List Edit) : Prop where
  behind : ∀ edit ∈ edits, start ≤ edit.index
  apart : edits.Pairwise fun earlier later =>
    earlier.index < later.index ∧ earlier.stop ≤ later.index
  inside : ∀ edit ∈ edits, edit.stop ≤ siblings.length
  consumed : ∀ edit ∈ edits, edit.consumed = 1 ∨ edit.consumed = 2
  replacement : ∀ edit ∈ edits, ∃ element script,
    edit.replacement = [.html element, .html script]
  block : ∀ edit ∈ edits, ∃ node text,
    siblings[edit.index]? = some node ∧ IsMapBlock settings text node
  others : ∀ place node, start ≤ place → siblings[place]? = some node →
    (∀ edit ∈ edits, place < edit.index ∨ edit.stop ≤ place) →
      ∀ text, ¬IsMapBlock settings text node

namespace CoversBlocks

variable {settings : Settings} {siblings : List Node} {start : ℕ} {edits : List Edit}

theorem nil (done : siblings.length ≤ start) : CoversBlocks settings siblings start [] where
  behind := List.forall_mem_nil _
  apart := .nil
  inside := List.forall_mem_nil _
  consumed := List.forall_mem_nil _
  replacement := List.forall_mem_nil _
  block := List.forall_mem_nil _
  others place node reached found _ := by
    have within : place < siblings.length := (List.getElem?_eq_some_iff.mp found).1
    omega

/-- A node that is no map block needs no edit. -/
theorem skip {node : Node}
    (covers : CoversBlocks settings siblings (start + 1) edits)
    (found : siblings[start]? = some node) (other : mapText? settings node = none) :
    CoversBlocks settings siblings start edits where
  behind edit member := Nat.le_of_succ_le (covers.behind edit member)
  apart := covers.apart
  inside := covers.inside
  consumed := covers.consumed
  replacement := covers.replacement
  block := covers.block
  others place later reached atPlace free text block := by
    rcases Nat.eq_or_lt_of_le reached with rfl | behind
    · cases found.symm.trans atPlace
      rw [mapText?_eq_some_iff.mpr block] at other
      cases other
    · exact covers.others place later behind atPlace free text block

/-- The edit of a map block comes before those behind the nodes that the block takes. -/
theorem cons {node : Node} {text : String} {count : ℕ} {replacement : List Node}
    (covers : CoversBlocks settings siblings (start + count) edits)
    (found : siblings[start]? = some node) (block : mapText? settings node = some text)
    (counted : count = 1 ∨ count = 2) (inside : start + count ≤ siblings.length)
    (html : ∃ element script, replacement = [.html element, .html script]) :
    CoversBlocks settings siblings start (⟨start, count, replacement⟩ :: edits) where
  behind := List.forall_mem_cons.mpr
    ⟨le_rfl, fun edit member => (Nat.le_add_right _ _).trans (covers.behind edit member)⟩
  apart := by
    refine List.pairwise_cons.mpr ⟨fun edit member => ?_, covers.apart⟩
    have behind : start + count ≤ edit.index := covers.behind edit member
    have later : start < edit.index := by omega
    exact ⟨later, behind⟩
  inside := List.forall_mem_cons.mpr ⟨inside, covers.inside⟩
  consumed := List.forall_mem_cons.mpr ⟨counted, covers.consumed⟩
  replacement := List.forall_mem_cons.mpr ⟨html, covers.replacement⟩
  block := List.forall_mem_cons.mpr
    ⟨⟨node, text, found, mapText?_eq_some_iff.mp block⟩, covers.block⟩
  others place later reached atPlace free := by
    obtain ⟨outside, freeLater⟩ := List.forall_mem_cons.mp free
    have behind : start + count ≤ place := outside.resolve_left (Nat.not_lt.mpr reached)
    exact covers.others place later behind atPlace freeLater

theorem ordered (covers : CoversBlocks settings siblings start edits) :
    Edit.Ordered siblings.length edits where
  apart := (covers.apart.imp fun both => both.2).isChain
  inside last found :=
    (Nat.le_add_right _ _).trans (covers.inside last (List.mem_of_mem_getLast? found))

/-- The edits can be applied to any list of the same length, and replace everything at once. -/
theorem applyAll?_eq (covers : CoversBlocks settings siblings start edits)
    {nodes : List Node} (length : nodes.length = siblings.length) :
    Edit.applyAll? edits nodes = some (Edit.replacedFrom nodes 0 edits) := by
  have ordered : Edit.Ordered nodes.length edits := length ▸ covers.ordered
  have counted : ∀ last ∈ edits.getLast?, last.hasEnd nodes.length = true := by
    intro last found
    have inside := covers.inside last (List.mem_of_mem_getLast? found)
    rw [Edit.hasEnd, length, decide_eq_true inside, Bool.true_or]
  exact Edit.applyAll?_eq_replacedFrom ordered counted fun first _ => Nat.zero_le _

end CoversBlocks

section

variable (diagnose : String → String)

theorem exists_html_drawBlock
    (settings : Settings) (context : Context) (node : Node) (text : String) :
    ∃ element script,
      (drawBlock diagnose settings context node text).1 = [.html element, .html script] := by
  rw [drawBlock_nodes]
  exact ⟨_, _, rfl⟩

/-- A scan covers the map blocks behind any siblings that come before it. -/
theorem coversBlocks_scanSiblings (settings : Settings) (nodes : List Node) :
    ∀ (before : List Node) (context : Context),
      CoversBlocks settings (before ++ nodes) before.length
        (scanSiblings diagnose settings before.length context nodes).edits := by
  induction nodes using visit_induction settings with
  | nil =>
      intro before context
      rw [List.append_nil, scanSiblings]
      exact .nil le_rfl
  | other node rest other inChildren inRest =>
      intro before context
      have later := inRest (before ++ [node]) (rewriteNode diagnose settings context node).2
      rw [List.length_append, List.length_singleton, List.append_assoc,
        List.singleton_append] at later
      rw [scanSiblings_of_other other]
      exact later.skip (by simp) other
  | block node rest text block inRest =>
      intro before context
      let removed := (node :: rest).take (taken settings rest)
      have count : removed.length = taken settings rest :=
        length_take_taken settings node rest
      have later := inRest (before ++ removed) (drawBlock diagnose settings context node text).2
      rw [List.length_append, count, List.append_assoc,
        take_taken_append_afterBlock settings node rest] at later
      have inside : before.length + taken settings rest ≤ (before ++ node :: rest).length := by
        rw [List.length_append, ← count]
        exact Nat.add_le_add_left (List.length_take_le' _ _) _
      have counted : taken settings rest = 1 ∨ taken settings rest = 2 := by
        unfold taken
        split
        · exact .inr rfl
        · exact .inl rfl
      rw [scanSiblings_of_block block]
      exact later.cons (by simp) block counted inside
        (exists_html_drawBlock diagnose settings context node text)

theorem mapText?_rewriteNode (settings : Settings) (context : Context) (node : Node) :
    mapText? settings (rewriteNode diagnose settings context node).1 =
      mapText? settings node := by
  cases node <;> rfl

/-- What happens below the siblings changes neither their number nor which are map blocks. -/
theorem map_mapText?_scanSiblings (settings : Settings) (nodes : List Node) :
    ∀ (index : ℕ) (context : Context),
      (scanSiblings diagnose settings index context nodes).nodes.map (mapText? settings) =
        nodes.map (mapText? settings) := by
  induction nodes using visit_induction settings with
  | nil =>
      intro index context
      rfl
  | other node rest other inChildren inRest =>
      intro index context
      simp only [scanSiblings_of_other other, List.map_cons, mapText?_rewriteNode, inRest]
  | block node rest text block inRest =>
      intro index context
      simp only [scanSiblings_of_block block, List.map_append, inRest]
      rw [← List.map_append, take_taken_append_afterBlock]

/-- A scan keeps the number of the siblings and the places of the map blocks among them.  Its
edits stand in order and apart, within the list, each with the one or two nodes that it takes
and the two that it puts there; they start at map blocks and leave none.  So they can be
applied, and replace everything at once. -/
theorem scan_edits_are_applicable (settings : Settings) (context : Context) (nodes : List Node) :
    let scanned := scanSiblings diagnose settings 0 context nodes
    scanned.nodes.length = nodes.length ∧
    scanned.nodes.map (mapText? settings) = nodes.map (mapText? settings) ∧
    CoversBlocks settings nodes 0 scanned.edits ∧
    Edit.applyAll? scanned.edits scanned.nodes =
      some (Edit.replacedFrom scanned.nodes 0 scanned.edits) := by
  intro scanned
  have same : scanned.nodes.map (mapText? settings) = nodes.map (mapText? settings) :=
    map_mapText?_scanSiblings diagnose settings nodes 0 context
  have length : scanned.nodes.length = nodes.length := by
    simpa using congrArg List.length same
  have covers : CoversBlocks settings nodes 0 scanned.edits :=
    coversBlocks_scanSiblings diagnose settings nodes [] context
  exact ⟨length, same, covers, covers.applyAll?_eq length⟩

end

end MapBlocks.Transform
