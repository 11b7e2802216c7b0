import MapBlocks.Transform.MapBlock

/-!
# Traversal of sibling lists

A scan meets the nodes of a sibling list from left to right.  After a map block
it goes on behind the nodes that the block takes with it, and it looks at the
children of every other node.  `visit_induction` is induction along that order;
the equations of `rewriteNode` and `scanSiblings` below have its cases.
-/

namespace MapBlocks.Transform

open Markdown (Node)

/-- How many nodes a map block takes, of those from itself to the last sibling. -/
def taken (settings : Settings) (following : List Node) : Nat :=
  if settings.consumesFollowing && !following.isEmpty then 2 else 1

/-- The siblings with which a scan goes on after a map block. -/
def afterBlock (settings : Settings) (following : List Node) : List Node :=
  if settings.consumesFollowing then following.tail else following

theorem length_take_taken
    (settings : Settings) (node : Node) (following : List Node) :
    ((node :: following).take (taken settings following)).length =
      taken settings following := by
  cases following <;> cases consumes : settings.consumesFollowing <;>
    simp [taken, consumes]

/-- A scan goes on behind the nodes that a map block takes. -/
theorem take_taken_append_afterBlock
    (settings : Settings) (node : Node) (following : List Node) :
    (node :: following).take (taken settings following) ++ afterBlock settings following =
      node :: following := by
  cases following <;> cases consumes : settings.consumesFollowing <;>
    simp [taken, afterBlock, consumes]

/-- A map block is a code block in the language of the settings, in whatever letter
case; its text is what the code block holds. -/
def IsMapBlock (settings : Settings) (text : String) (node : Node) : Prop :=
  ∃ language info position,
    node = .leaf (.code (some language) info text) position ∧
      lowerCase language = lowerCase settings.language

theorem mapText?_eq_some_iff {settings : Settings} {node : Node} {text : String} :
    mapText? settings node = some text ↔ IsMapBlock settings text node := by
  constructor
  · intro block
    unfold mapText? at block
    split at block
    · split at block
      · rename_i language info value position same
        cases block
        exact ⟨language, info, position, rfl, same⟩
      · cases block
    · cases block
  · rintro ⟨language, info, position, rfl, same⟩
    simp [mapText?, same]

/-- Induction along a scan: the children of a node that is no map block are met,
and so are the siblings behind a map block. -/
theorem visit_induction
    (settings : Settings) {motive : List Node → Prop}
    (nil : motive [])
    (other : ∀ node rest, mapText? settings node = none →
      (∀ children, node.children? = some children → motive children) →
      motive rest → motive (node :: rest))
    (block : ∀ node rest text, mapText? settings node = some text →
      motive (afterBlock settings rest) → motive (node :: rest))
    (nodes : List Node) : motive nodes := by
  -- A block may take its neighbour unseen, so the tail of a list is carried along.
  have withTail : motive nodes ∧ motive nodes.tail := by
    refine @Node.rec_1
      (fun node => ∀ children, node.children? = some children → motive children)
      (fun nodes => motive nodes ∧ motive nodes.tail)
      (fun optional => ∀ children, optional = some children → motive children)
      ?container ?leaf ?unknown ?nil ?cons ?none ?some nodes
    case container =>
      rintro kind inner position ⟨all, _⟩ children holds
      cases holds
      exact all
    case leaf =>
      intro kind position children holds
      cases holds
    case unknown =>
      intro kind inner position fields reached
      exact reached
    case nil => exact ⟨nil, nil⟩
    case cons =>
      rintro node rest inChildren ⟨all, tail⟩
      refine ⟨?_, all⟩
      cases found : mapText? settings node with
      | none => exact other node rest found inChildren all
      | some text =>
          apply block node rest text found
          cases consumes : settings.consumesFollowing with
          | true => simpa [afterBlock, consumes] using tail
          | false => simpa [afterBlock, consumes] using all
    case none =>
      intro children holds
      cases holds
    case some =>
      rintro inner ⟨all, _⟩ children holds
      cases holds
      exact all
  exact withTail.1

theorem rewriteNode_eq
    (diagnose : String → String) (settings : Settings) (context : Context) (node : Node) :
    rewriteNode diagnose settings context node =
      match node.children? with
      | none => (node, context)
      | some children =>
          let (rewritten, after) := rewriteSiblings diagnose settings context children
          (node.withChildren rewritten, after) := by
  cases node with
  | container kind children position => rfl
  | leaf kind position => rfl
  | unknown kind children position fields => cases children <;> rfl

theorem scanSiblings_of_other
    {settings : Settings} {node : Node} (other : mapText? settings node = none)
    (diagnose : String → String) (index : Nat) (context : Context) (rest : List Node) :
    scanSiblings diagnose settings index context (node :: rest) =
      let (rewritten, after) := rewriteNode diagnose settings context node
      let scanned := scanSiblings diagnose settings (index + 1) after rest
      ⟨rewritten :: scanned.nodes, scanned.edits, scanned.context⟩ := by
  rw [scanSiblings]
  simp only [other]

theorem scanSiblings_of_block
    {settings : Settings} {node : Node} {text : String}
    (block : mapText? settings node = some text)
    (diagnose : String → String) (index : Nat) (context : Context) (rest : List Node) :
    scanSiblings diagnose settings index context (node :: rest) =
      let (replacement, after) := drawBlock diagnose settings context node text
      let count := taken settings rest
      let scanned :=
        scanSiblings diagnose settings (index + count) after (afterBlock settings rest)
      ⟨(node :: rest).take count ++ scanned.nodes,
        ⟨index, count, replacement⟩ :: scanned.edits, scanned.context⟩ := by
  rw [scanSiblings]
  simp only [block]
  cases rest with
  | nil => simp [taken, afterBlock, scanSiblings]
  | cons slot others =>
      cases consumes : settings.consumesFollowing <;> simp [taken, afterBlock, consumes]

end MapBlocks.Transform
