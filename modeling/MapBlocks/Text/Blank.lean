/-!
# Blank characters

The characters with the Unicode property `White_Space`, trimming on both sides, and the division
of a text into words.
-/

namespace MapBlocks.Text

/-- The characters with the Unicode property `White_Space`, 25 in all. -/
def isBlank (c : Char) : Bool :=
  let code := c.toNat
  (0x9 ≤ code && code ≤ 0xD) || code == 0x20 || code == 0x85 || code == 0xA0 || code == 0x1680
    || (0x2000 ≤ code && code ≤ 0x200A) || code == 0x2028 || code == 0x2029 || code == 0x202F
    || code == 0x205F || code == 0x3000

def trimLeft (text : List Char) : List Char := text.dropWhile isBlank

/-- The text without its leading and trailing blanks. -/
def trim (text : List Char) : List Char := (trimLeft (trimLeft text).reverse).reverse

def trimmed (text : String) : String := String.ofList (trim text.toList)

/-- Dropping a leading stretch never lengthens a list. -/
theorem length_dropWhile_le {α : Type} (p : α → Bool) (items : List α) :
    (items.dropWhile p).length ≤ items.length :=
  (List.dropWhile_suffix p).length_le

/-- The words of a text: its maximal stretches of characters that are not blank, in order. -/
def words : List Char → List (List Char)
  | [] => []
  | c :: rest =>
      if isBlank c then words rest
      else (c :: rest.takeWhile (!isBlank ·)) :: words (rest.dropWhile (!isBlank ·))
termination_by text => text.length
decreasing_by
  · simp
  · exact Nat.lt_succ_of_le (length_dropWhile_le _ _)

end MapBlocks.Text
