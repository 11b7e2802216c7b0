import MapBlocks.Yaml.Cursor

/-!
# Line folding

In a scalar of several lines, blanks around a line end are dropped, a single line end becomes a
space, and of several line ends all but the first are kept.
-/

namespace MapBlocks.Yaml

/-- A scalar that is being read, with what comes after its last character that is not blank. -/
structure Folding where
  /-- The text so far, in reverse. -/
  text : List Char
  /-- The blanks since the last other character, in reverse. -/
  blanks : List Char
  /-- Whether a line has ended since the last other character. -/
  broken : Bool
  /-- What the first line end stands for; nothing if it is escaped. -/
  first : List Char
  /-- What the further line ends stand for, in reverse. -/
  further : List Char

namespace Folding

def empty : Folding := ⟨[], [], false, [], []⟩

/-- Adds a blank; at the start of a line it has no meaning. -/
def addBlank (folding : Folding) (c : Char) : Folding :=
  if folding.broken then folding else { folding with blanks := c :: folding.blanks }

def addBreak (folding : Folding) (text : List Char) : Folding :=
  if folding.broken then { folding with further := text.reverse ++ folding.further }
  else { folding with blanks := [], broken := true, first := text }

/-- Puts what is pending into the text. -/
def join (folding : Folding) : Folding :=
  let text :=
    if !folding.broken then folding.blanks ++ folding.text
    else if folding.first = ['\n'] then
      if folding.further.isEmpty then ' ' :: folding.text else folding.further ++ folding.text
    else folding.further ++ folding.first.reverse ++ folding.text
  ⟨text, [], false, [], []⟩

/-- Adds characters of which none is folded. -/
def add (folding : Folding) (characters : List Char) : Folding :=
  let joined := folding.join
  { joined with text := characters.reverse ++ joined.text }

/-- Passes an escaped line end. -/
def addEscapedBreak (folding : Folding) : Folding := { folding.join with broken := true }

/-- The text without what is pending. -/
def result (folding : Folding) : List Char := folding.text.reverse

end Folding

end MapBlocks.Yaml
