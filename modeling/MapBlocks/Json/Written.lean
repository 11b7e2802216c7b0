import MapBlocks.Json.Token

/-!
# JSON texts as they are written

The second stage of reading: tokens become a tree that keeps numbers and strings as written. The
tree is built over a stack of the arrays and objects that are still open, so its depth is not
limited here.
-/

namespace MapBlocks.Json

/-- A JSON text by its grammar alone. -/
inductive Written where
  | null
  | bool (value : Bool)
  | number (numeral : Numeral)
  | string (pieces : List Piece)
  | array (items : List Written)
  | object (members : List (List Piece × Written))

namespace Written

/-- An array or object that is still open, with what it holds so far in reverse. -/
inductive Frame where
  | array (items : List Written)
  | object (members : List (List Piece × Written))
  | member (members : List (List Piece × Written)) (key : List Piece)

/-- What may come next. -/
inductive Stage where
  | value
  /-- The first item of an array, or its end. -/
  | firstItem
  | key
  /-- The first key of an object, or its end. -/
  | firstKey
  | colon
  /-- A comma or the end of the innermost array or object, after a value. -/
  | next
  /-- Nothing: the text is complete. -/
  | finished (result : Written)

/-- A text read in part. -/
structure Progress where
  frames : List Frame
  stage : Stage

/-- Puts a complete value where it belongs. -/
def complete (value : Written) : List Frame → Option Progress
  | [] => some ⟨[], .finished value⟩
  | .array items :: rest => some ⟨.array (value :: items) :: rest, .next⟩
  | .member members key :: rest => some ⟨.object ((key, value) :: members) :: rest, .next⟩
  | .object _ :: _ => none

/-- Reads the first token of a value. -/
def begin? (frames : List Frame) : Token → Option Progress
  | .null => complete .null frames
  | .bool value => complete (.bool value) frames
  | .number numeral => complete (.number numeral) frames
  | .string pieces => complete (.string pieces) frames
  | .arrayOpen => some ⟨.array [] :: frames, .firstItem⟩
  | .objectOpen => some ⟨.object [] :: frames, .firstKey⟩
  | _ => none

def Progress.step (progress : Progress) (token : Token) : Option Progress :=
  match progress.stage, token, progress.frames with
  | .firstItem, .arrayClose, .array items :: rest => complete (.array items.reverse) rest
  | .firstItem, token, frames => begin? frames token
  | .value, token, frames => begin? frames token
  | .firstKey, .objectClose, .object members :: rest => complete (.object members.reverse) rest
  | .firstKey, .string pieces, .object members :: rest =>
      some ⟨.member members pieces :: rest, .colon⟩
  | .key, .string pieces, .object members :: rest =>
      some ⟨.member members pieces :: rest, .colon⟩
  | .colon, .colon, frames => some ⟨frames, .value⟩
  | .next, .comma, .array items :: rest => some ⟨.array items :: rest, .value⟩
  | .next, .comma, .object members :: rest => some ⟨.object members :: rest, .key⟩
  | .next, .arrayClose, .array items :: rest => complete (.array items.reverse) rest
  | .next, .objectClose, .object members :: rest => complete (.object members.reverse) rest
  | _, _, _ => none

/-- The value that a whole sequence of tokens spells. -/
def ofTokens? (tokens : List Token) : Option Written :=
  match tokens.foldlM Progress.step ⟨[], .value⟩ with
  | some ⟨_, .finished result⟩ => some result
  | _ => none

def parse? (text : List Char) : Option Written := (tokens? text).bind ofTokens?

end Written

end MapBlocks.Json
