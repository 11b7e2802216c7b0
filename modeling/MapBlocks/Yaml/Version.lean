/-!
# Versions of YAML

Two versions of YAML are read: 1.2 in the text of map blocks and 1.1 in settings. They share their
structure and differ in many details of layout. The character classes of both stand here. At the
end of a text there is no character, which counts as blank wherever a line end does.
-/

namespace MapBlocks.Yaml

/-- The version of YAML by whose rules a text is read. -/
inductive Version where
  | v11
  | v12
  deriving DecidableEq, Repr

/-- A space or a tab. -/
def isBlank (c : Char) : Bool := c = ' ' || c = '\t'

/-- The brackets of flow collections and the comma between their entries. -/
def isFlow (c : Char) : Bool := c = ',' || c = '[' || c = ']' || c = '\x7b' || c = '\x7d'

def isAlphanumeric (c : Char) : Bool := c.isAlpha || c.isDigit

/-- The characters of names: letters, digits, the hyphen and the underscore. -/
def isWord (c : Char) : Bool := isAlphanumeric c || c = '-' || c = '_'

namespace Version

/-- Whether a character ends a line. Version 1.1 has three line ends beyond ASCII. -/
def isBreak (version : Version) (c : Char) : Bool :=
  c = '\n' || c = '\r'
    || (version = .v11 && (c = '\u0085' || c = '\u2028' || c = '\u2029'))

/-- Whether there is a line end or no character. -/
def endsLine (version : Version) (c? : Option Char) : Bool := c?.all version.isBreak

/-- Whether there is a blank, a line end or no character. -/
def isGap (version : Version) (c? : Option Char) : Bool :=
  c?.all fun c => isBlank c || version.isBreak c

/-- How long a line end is that the text starts with: a carriage return and a line feed are one. -/
def breakLength (version : Version) : List Char → Nat
  | '\r' :: '\n' :: _ => 2
  | c :: _ => if version.isBreak c then 1 else 0
  | [] => 0

/-- What the line end at the start of a text stands for: a line feed, or itself if it is one of
the separators U+2028 and U+2029. -/
def breakText (version : Version) : List Char → List Char
  | c :: _ =>
      if !version.isBreak c then []
      else if c = '\u2028' || c = '\u2029' then [c] else ['\n']
  | [] => []

/-- Whether a character may stand in a text of version 1.1. -/
def isPrintable (c : Char) : Bool :=
  let code := c.toNat
  code = 0x9 || code = 0xA || code = 0xD || (0x20 ≤ code && code ≤ 0x7E) || code = 0x85
    || (0xA0 ≤ code && code ≤ 0xD7FF) || (0xE000 ≤ code && code ≤ 0xFFFD) || 0x10000 ≤ code

/-- The text to read. Version 1.2 stops at a null character; version 1.1 refuses characters that
are not printable. -/
def prepare? (version : Version) (text : List Char) : Option (List Char) :=
  match version with
  | .v12 => some (text.takeWhile (· ≠ '\x00'))
  | .v11 => if text.all isPrintable then some text else none

end Version

end MapBlocks.Yaml
