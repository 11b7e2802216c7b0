import MapBlocks.Map.Payload
import MapBlocks.Text.Blank

/-!
# Image overlays

The image of a map is named in its payload, possibly in brackets as links to notes are, which make
it a list in a list. Its path is that name after the directory of assets.
-/

namespace MapBlocks.Map

/-- The name of an image, out of any number of lists of one item. -/
def imageName? : Yaml.Value → Option String
  | .seq [item] => imageName? item
  | value => match value.scalarText? with
      | none => none
      | some text => let name := Text.trimmed text; if name = "" then none else some name

/-- The path of the image that a payload names. -/
def imagePath? (payload : Payload) (directory : String) : Option String := do
  let value ← payload.get? "image"
  let name ← imageName? value
  some (directory ++ name)

end MapBlocks.Map
