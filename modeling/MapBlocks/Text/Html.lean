/-!
# Text inside HTML attributes

Five characters are written as character references, so that a text can stand between double
quotes in an element's start tag. `unescape` reads those five references back.
-/

namespace MapBlocks.Text.Html

def escapeChar : Char → List Char
  | '&' => "&amp;".toList
  | '<' => "&lt;".toList
  | '>' => "&gt;".toList
  | '"' => "&quot;".toList
  | '\'' => "&#39;".toList
  | c => [c]

/-- The text with `& < > " '` written as character references. -/
def escape (text : List Char) : List Char := text.flatMap escapeChar

/-- The text with the five character references read back; any other `&` stands for itself. -/
def unescape : List Char → List Char
  | '&' :: 'a' :: 'm' :: 'p' :: ';' :: rest => '&' :: unescape rest
  | '&' :: 'l' :: 't' :: ';' :: rest => '<' :: unescape rest
  | '&' :: 'g' :: 't' :: ';' :: rest => '>' :: unescape rest
  | '&' :: 'q' :: 'u' :: 'o' :: 't' :: ';' :: rest => '"' :: unescape rest
  | '&' :: '#' :: '3' :: '9' :: ';' :: rest => '\'' :: unescape rest
  | c :: rest => c :: unescape rest
  | [] => []

def escaped (text : String) : String := String.ofList (escape text.toList)

end MapBlocks.Text.Html
