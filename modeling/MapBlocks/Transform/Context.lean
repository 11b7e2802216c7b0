/-!
# Transform context

What is known about a document while transforms run over it: where it comes from, how many maps
have been drawn, and what has been warned about.
-/

namespace MapBlocks.Transform

/-- A warning of a transform. -/
structure Warning where
  transform : String
  message : String
  deriving DecidableEq, Repr

/-- The context of a document. -/
structure Context where
  input : Option String
  /-- How many map blocks have been replaced, counted in 64 bits: after the last value the counter
  starts again at zero. -/
  mapsRendered : UInt64
  warnings : List Warning
  deriving DecidableEq, Repr

namespace Context

/-- A context in which nothing has happened yet. -/
def start (input : Option String) : Context := ⟨input, 0, []⟩

def warn (context : Context) (transform message : String) : Context :=
  { context with warnings := context.warnings ++ [⟨transform, message⟩] }

def countMap (context : Context) : Context :=
  { context with mapsRendered := context.mapsRendered + 1 }

end Context

end MapBlocks.Transform
