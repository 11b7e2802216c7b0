import MapBlocks.Text.Split
import MapBlocks.Transform.Pipeline

/-!
# Word count

A transform that writes the number of words of a document's source into its metadata, and the
badge that shows it.
-/

namespace MapBlocks.Transform

/-- The number of words of a text; a text without words counts as one. -/
def countWords (text : String) : Nat :=
  let body := Text.trim text.toList
  if body.isEmpty then 1
  else ((Text.split Text.isBlank body).filter fun piece => !piece.isEmpty).length

/-- The key under which the number of words is kept. -/
def wordCountKey : String := "wordcount"

/-- The badge with the number of words that metadata holds; zero if it holds none. -/
def wordCountBadge (data : Markdown.Metadata) : String :=
  let count := (data.natural? wordCountKey).getD 0
  "<span class=\"wc\">~" ++ String.ofList (Nat.toDigits 10 count) ++ " words</span>"

/-- The document with the number of its words in its metadata. -/
def recordWordCount (document : Markdown.Document) : Markdown.Document :=
  { document with
    data := document.data.insert wordCountKey (.num (.int (countWords document.source))) }

/-- The transform that counts words. -/
def wordCount : Step where
  name := "word-count"
  run state := ({ state with document := recordWordCount state.document }, .ok ())

end MapBlocks.Transform
