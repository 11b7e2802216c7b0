import MapBlocks.Error
import MapBlocks.Markdown.Document
import MapBlocks.Transform.Context

/-!
# Pipelines

A transform changes a document and its context, or fails. A pipeline runs transforms one after the
other up to the first that fails; what the earlier ones and the failing one did stays.
-/

namespace MapBlocks.Transform

/-- A document with its context. -/
structure State where
  document : Markdown.Document
  context : Context

/-- A named step over a document. A failing step still gives the state that it leaves behind. -/
structure Step where
  name : String
  run : State → State × Except MapError Unit

/-- Transforms in the order in which they run. -/
abbrev Pipeline := List Step

namespace Pipeline

/-- The names of the transforms, in order. -/
def names (pipeline : Pipeline) : List String := pipeline.map Step.name

/-- Runs the transforms in order, up to the first that fails. -/
def execute : Pipeline → State → State × Except MapError Unit
  | [], state => (state, .ok ())
  | step :: rest, state =>
      match step.run state with
      | (next, .ok ()) => execute rest next
      | (next, .error error) => (next, .error error)

end Pipeline

end MapBlocks.Transform
