/-!
# Errors

What can go wrong on the way from a document to its maps, with the text that is shown for it. Where
other code finds the fault, the text ends with what that code says.
-/

namespace MapBlocks

/-- An error of reading settings or of running a transform. -/
inductive MapError where
  | unreadableSettings (reason : String)
  /-- The settings can be read but make no sense. -/
  | invalidSettings (reason : String)
  /-- A value cannot be written as JSON. No description of a map is such a value: its members are
  named by texts, and a number that is not finite is written as null. -/
  | serialization (reason : String)
  /-- A text cannot be put out. Maps are put out into a string, which takes every text. -/
  | formatting
  | transform (reason : String)
  deriving DecidableEq, Repr

def MapError.message : MapError → String
  | .unreadableSettings reason => "Configuration error: " ++ reason
  | .invalidSettings reason => "Invalid configuration: " ++ reason
  | .serialization reason => "Serialization error: " ++ reason
  | .formatting => "Output formatting error: an error occurred when formatting an argument"
  | .transform reason => "Transform error: " ++ reason

end MapBlocks
