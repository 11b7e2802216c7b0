import MapBlocks.Text.Blank

/-!
# Splitting at separators

A text with `n` separators has `n + 1` pieces, any of which may be empty.
-/

namespace MapBlocks.Text

/-- The pieces of a text between the characters that pass a test. -/
def split (isSeparator : Char → Bool) : List Char → List (List Char)
  | [] => [[]]
  | c :: rest =>
      if isSeparator c then [] :: split isSeparator rest
      else match split isSeparator rest with
        | [] => [[c]]
        | piece :: pieces => (c :: piece) :: pieces

/-- The pieces of a text between the occurrences of a character, without blanks around them. -/
def fields (separator : Char) (text : String) : List String :=
  (split (· = separator) text.toList).map fun piece => String.ofList (trim piece)

/-- The text, if it is not empty. -/
def nonempty? (text : String) : Option String := if text = "" then none else some text

end MapBlocks.Text
