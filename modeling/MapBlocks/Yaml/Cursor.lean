import MapBlocks.Yaml.Version

/-!
# A place in a text

A cursor is the rest of a text together with the line and column where that rest starts.
-/

namespace MapBlocks.Yaml

/-- A place in a text that is being read. -/
structure Cursor where
  version : Version
  rest : List Char
  /-- How many characters come before. -/
  index : Nat
  line : Nat
  column : Nat
  /-- Whether only blanks come before on the same line. -/
  leading : Bool

namespace Cursor

def start (version : Version) (text : List Char) : Cursor := ⟨version, text, 0, 0, 0, true⟩

def peek? (cursor : Cursor) : Option Char := cursor.rest.head?

/-- The character after the next one. -/
def second? (cursor : Cursor) : Option Char := cursor.rest[1]?

def starts (cursor : Cursor) (c : Char) : Bool := cursor.peek? == some c

theorem rest_of_starts {cursor : Cursor} {c : Char} (next : cursor.starts c) :
    ∃ tail, cursor.rest = c :: tail := by
  simp only [starts, peek?, beq_iff_eq] at next
  exact List.head?_eq_some_iff.1 next

def atEnd (cursor : Cursor) : Bool := cursor.rest.isEmpty

/-- Whether a line end is next. -/
def atBreak (cursor : Cursor) : Bool := cursor.peek?.any cursor.version.isBreak

/-- Whether a space or a tab is next. -/
def atBlank (cursor : Cursor) : Bool := cursor.peek?.any isBlank

/-- Whether a line end or the end of the text is next. -/
def atLineEnd (cursor : Cursor) : Bool := cursor.version.endsLine cursor.peek?

/-- Whether a blank, a line end or the end of the text is next. -/
def atGap (cursor : Cursor) : Bool := cursor.version.isGap cursor.peek?

/-- Passes one character. A carriage return before a line feed leaves the line to the latter. -/
def advance (cursor : Cursor) : Cursor :=
  match cursor.rest with
  | [] => cursor
  | c :: rest =>
      if cursor.version.isBreak c && !(c = '\r' && rest.head? == some '\n') then
        ⟨cursor.version, rest, cursor.index + 1, cursor.line + 1, 0, true⟩
      else
        ⟨cursor.version, rest, cursor.index + 1, cursor.line, cursor.column + 1,
          cursor.leading && isBlank c⟩

/-- Passes a number of characters. -/
def skip : Nat → Cursor → Cursor
  | 0, cursor => cursor
  | count + 1, cursor => skip count cursor.advance

/-- How many characters are left. -/
def remaining (cursor : Cursor) : Nat := cursor.rest.length

@[simp]
theorem version_advance (cursor : Cursor) : cursor.advance.version = cursor.version := by
  unfold advance
  split
  · rfl
  · split <;> rfl

@[simp]
theorem version_skip (count : Nat) (cursor : Cursor) :
    (cursor.skip count).version = cursor.version := by
  induction count generalizing cursor with
  | zero => rfl
  | succ count ih => rw [skip, ih, version_advance]

theorem rest_advance (cursor : Cursor) : cursor.advance.rest = cursor.rest.tail := by
  unfold advance
  split
  · simp_all
  · rename_i rest
    split <;> simp [rest]

theorem rest_skip (count : Nat) (cursor : Cursor) :
    (cursor.skip count).rest = cursor.rest.drop count := by
  induction count generalizing cursor with
  | zero => rfl
  | succ count ih => rw [skip, ih, rest_advance, List.drop_tail]

@[simp]
theorem remaining_skip (count : Nat) (cursor : Cursor) :
    (cursor.skip count).remaining = cursor.remaining - count := by
  rw [remaining, rest_skip, List.length_drop, remaining]

theorem remaining_skip_le (count : Nat) (cursor : Cursor) :
    (cursor.skip count).remaining ≤ cursor.remaining := by
  simp

/-- Passing at least one of the characters that are left leaves fewer. -/
theorem remaining_skip_lt {count : Nat} {cursor : Cursor} {c : Char} {tail : List Char}
    (positive : 0 < count) (rest : cursor.rest = c :: tail) :
    (cursor.skip count).remaining < cursor.remaining := by
  have : 0 < cursor.remaining := by simp [remaining, rest]
  rw [remaining_skip]
  omega

/-- The characters up to the first that fails a test. -/
def upTo (cursor : Cursor) (test : Char → Bool) : List Char := cursor.rest.takeWhile test

/-- Passes the characters up to the first that fails a test. -/
def skipWhile (cursor : Cursor) (test : Char → Bool) : Cursor :=
  cursor.skip (cursor.upTo test).length

theorem rest_skipWhile (cursor : Cursor) (test : Char → Bool) :
    (cursor.skipWhile test).rest = cursor.rest.dropWhile test := by
  have dropped : (cursor.rest.takeWhile test ++ cursor.rest.dropWhile test).drop
      (cursor.rest.takeWhile test).length = cursor.rest.dropWhile test := List.drop_left
  rwa [List.takeWhile_append_dropWhile, ← rest_skip] at dropped

theorem remaining_skipWhile_le (cursor : Cursor) (test : Char → Bool) :
    (cursor.skipWhile test).remaining ≤ cursor.remaining :=
  remaining_skip_le _ _

def restOfLine (cursor : Cursor) : List Char := cursor.upTo fun c => !cursor.version.isBreak c

/-- Passes the rest of the line. -/
def skipLine (cursor : Cursor) : Cursor := cursor.skipWhile fun c => !cursor.version.isBreak c

/-- Passes a line end, if one is next. -/
def skipBreak (cursor : Cursor) : Cursor := cursor.skip (cursor.version.breakLength cursor.rest)

theorem remaining_skipBreak_le (cursor : Cursor) : cursor.skipBreak.remaining ≤ cursor.remaining :=
  remaining_skip_le _ _

/-- A line end takes at least one character. -/
theorem remaining_skipBreak_lt {cursor : Cursor} (next : cursor.atBreak) :
    cursor.skipBreak.remaining < cursor.remaining := by
  unfold atBreak peek? at next
  cases rest : cursor.rest with
  | nil => simp [rest] at next
  | cons c tail =>
      refine remaining_skip_lt ?_ rest
      simp only [rest, List.head?_cons, Option.any_some] at next
      unfold Version.breakLength
      split <;> simp_all

/-- A line that is not the last ends in a line end. -/
theorem atBreak_skipLine {cursor : Cursor} (more : ¬cursor.skipLine.atEnd) :
    cursor.skipLine.atBreak := by
  have version : cursor.skipLine.version = cursor.version := version_skip _ _
  have rest : cursor.skipLine.rest = cursor.rest.dropWhile fun c => !cursor.version.isBreak c :=
    rest_skipWhile _ _
  unfold atBreak peek?
  unfold atEnd at more
  rw [version, rest]
  rw [rest] at more
  cases left : cursor.rest.dropWhile fun c => !cursor.version.isBreak c with
  | nil => simp [left] at more
  | cons c tail =>
      have := List.head_dropWhile_not (fun c => !cursor.version.isBreak c)
        (show cursor.rest.dropWhile _ ≠ [] by simp [left])
      simp_all

/-- What the line end that is next stands for. -/
def breakText (cursor : Cursor) : List Char := cursor.version.breakText cursor.rest

/-- Whether three equal characters and a gap are next. -/
def atTriple (cursor : Cursor) (mark : Char) : Bool :=
  match cursor.rest with
  | a :: b :: c :: tail => a = mark && b = mark && c = mark && cursor.version.isGap tail.head?
  | _ => false

/-- Whether the mark of a document's start or end is next, at the start of a line. -/
def atDocumentMark (cursor : Cursor) : Bool :=
  cursor.column = 0 && (cursor.atTriple '-' || cursor.atTriple '.')

end Cursor

end MapBlocks.Yaml
