import MapBlocks.Transform.MapBlock
import MapBlocks.Transform.WordCount

/-!
# The standard pipeline

What is done with every document: its maps are drawn and its words are counted.
-/

namespace MapBlocks.Transform

/-- The pipeline for documents. `diagnose` is what the YAML reader says about a text that it cannot
read. -/
def standard (diagnose : String → String) (settings : Settings) : Pipeline :=
  [mapBlocks diagnose settings, wordCount]

end MapBlocks.Transform
