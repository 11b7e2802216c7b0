import MapBlocks.Yaml.Token.Space

/-!
# Block scalars

A literal scalar keeps its line ends, a folded one joins its lines. The header may fix the
indentation and says what happens to the line ends after the last line.
-/

namespace MapBlocks.Yaml

/-- What happens to the line ends after the last line of a block scalar. -/
inductive Chomp where
  /-- All are dropped. -/
  | strip
  /-- The first is kept. -/
  | clip
  /-- All are kept. -/
  | keep
  deriving DecidableEq, Repr

/-- The header of a block scalar. -/
structure BlockHeader where
  chomp : Chomp
  /-- The indentation of the lines, relative to the collection around them; zero if the first
  line decides. -/
  increment : Nat
  /-- How many characters write the header. -/
  length : Nat
  deriving DecidableEq, Repr

/-- The chomping that a sign in the header asks for. -/
def chompOf? : Char → Option Chomp
  | '+' => some .keep
  | '-' => some .strip
  | _ => none

/-- Reads the header of a block scalar, in which the sign and the digit come in any order. A zero
is no indentation. -/
def blockHeader? : List Char → Option BlockHeader
  | [] => some ⟨.clip, 0, 0⟩
  | c :: rest =>
      match chompOf? c, rest.head? with
      | some chomp, some digit =>
          if !digit.isDigit then some ⟨chomp, 0, 1⟩
          else if digit = '0' then none
          else some ⟨chomp, digit.toNat - 48, 2⟩
      | some chomp, none => some ⟨chomp, 0, 1⟩
      | none, next? =>
          if !c.isDigit then some ⟨.clip, 0, 0⟩
          else if c = '0' then none
          else match next?.bind chompOf? with
            | some chomp => some ⟨chomp, c.toNat - 48, 2⟩
            | none => some ⟨.clip, c.toNat - 48, 1⟩

/-- Empty lines that have been passed: what their ends stand for, in reverse, and the place after
them. -/
structure EmptyLines where
  breaks : List Char
  /-- The greatest number of spaces on one of the lines. -/
  widest : Nat
  cursor : Cursor

/-- Passes empty lines and the indentation of the line after them, which is at most `limit`
columns if there is a limit. Version 1.1 refuses a tab in place of indentation. -/
def passEmptyLines? (limit : Option Nat) (breaks : List Char) (widest : Nat) (cursor : Cursor) :
    Option EmptyLines :=
  let spaces := (cursor.upTo (· = ' ')).length
  let count := match limit with
    | some column => min spaces (column - cursor.column)
    | none => spaces
  let indented := cursor.skip count
  let wider := max widest indented.column
  let short := limit.all (indented.column < ·)
  if cursor.version = .v11 && short && indented.starts '\t' then none
  else if _ : indented.atBreak then
    passEmptyLines? limit (indented.breakText.reverse ++ breaks) wider indented.skipBreak
  else some ⟨breaks, wider, indented⟩
termination_by cursor.remaining
decreasing_by
  exact Nat.lt_of_lt_of_le (Cursor.remaining_skipBreak_lt (by assumption))
    (Cursor.remaining_skip_le _ _)

theorem remaining_of_passEmptyLines? {limit : Option Nat} {breaks : List Char} {widest : Nat}
    {cursor : Cursor} {lines : EmptyLines}
    (passed : passEmptyLines? limit breaks widest cursor = some lines) :
    lines.cursor.remaining ≤ cursor.remaining := by
  fun_induction passEmptyLines? limit breaks widest cursor with
  | case1 => simp at passed
  | case2 _ _ cursor _ count indented _ _ _ _ ih =>
      have := ih passed
      have := Cursor.remaining_skipBreak_le indented
      have : indented.remaining ≤ cursor.remaining := Cursor.remaining_skip_le count cursor
      omega
  | case3 _ _ cursor _ count =>
      simp only [Option.some.injEq] at passed
      subst passed
      exact Cursor.remaining_skip_le count cursor

/-- A block scalar that is being read. -/
structure BlockText where
  /-- The text so far, in reverse. -/
  text : List Char
  /-- What the end of the last line stands for. -/
  lastBreak : List Char
  /-- What the ends of the empty lines after it stand for, in reverse. -/
  breaks : List Char
  /-- Whether the last line starts with a blank. -/
  blankLine : Bool
  cursor : Cursor

/-- The text before the next line: in a folded scalar a single line end between two lines that do
not start with a blank becomes a space. -/
def BlockText.joined (block : BlockText) (isFolded blankLine : Bool) : List Char :=
  if isFolded && block.lastBreak = ['\n'] && !block.blankLine && !blankLine then
    if block.breaks.isEmpty then ' ' :: block.text else block.breaks ++ block.text
  else block.breaks ++ block.lastBreak.reverse ++ block.text

/-- Whether no further line is indented to the given column. -/
def BlockText.isOver (block : BlockText) (column : Nat) : Bool :=
  let cursor := block.cursor
  cursor.column ≠ column || cursor.atEnd
    || (column = 0 && cursor.version = .v12 && cursor.atTriple '.')

/-- Reads a line of a block scalar, the empty lines after it and the indentation of the next. -/
def BlockText.line? (block : BlockText) (isFolded : Bool) (column : Nat) : Option BlockText :=
  let cursor := block.cursor
  let blankLine := cursor.atBlank
  let after := cursor.skipLine
  let text := cursor.restOfLine.reverse ++ block.joined isFolded blankLine
  if after.atEnd then some ⟨text, [], [], blankLine, after⟩
  else (passEmptyLines? (some column) [] 0 after.skipBreak).map fun lines =>
    ⟨text, after.breakText, lines.breaks, blankLine, lines.cursor⟩

theorem BlockText.remaining_of_line? {block next : BlockText} {isFolded : Bool} {column : Nat}
    (more : block.isOver column = false) (read : block.line? isFolded column = some next) :
    next.cursor.remaining < block.cursor.remaining := by
  have line_le : block.cursor.skipLine.remaining ≤ block.cursor.remaining :=
    Cursor.remaining_skipWhile_le _ _
  simp only [line?] at read
  split at read
  · rename_i atEnd
    have none_left : block.cursor.skipLine.remaining = 0 := by
      simpa [Cursor.atEnd, Cursor.remaining] using atEnd
    have some_left : block.cursor.remaining ≠ 0 := by
      simp_all [isOver, Cursor.atEnd, Cursor.remaining]
    simp only [Option.some.injEq] at read
    subst read
    dsimp only
    omega
  · rename_i inside
    obtain ⟨lines, passed, rfl⟩ := Option.map_eq_some_iff.1 read
    have := remaining_of_passEmptyLines? passed
    have := Cursor.remaining_skipBreak_lt (Cursor.atBreak_skipLine inside)
    dsimp only
    omega

/-- Reads the lines of a block scalar that are indented to the given column. -/
def scanLines? (isFolded : Bool) (column : Nat) (block : BlockText) : Option BlockText :=
  if _ : block.isOver column then some block
  else match _ : block.line? isFolded column with
    | none => none
    | some next => scanLines? isFolded column next
termination_by block.cursor.remaining
decreasing_by
  exact BlockText.remaining_of_line? (Bool.eq_false_iff.2 (by assumption)) (by assumption)

theorem remaining_of_scanLines? {isFolded : Bool} {column : Nat} {before after : BlockText}
    (read : scanLines? isFolded column before = some after) :
    after.cursor.remaining ≤ before.cursor.remaining := by
  fun_induction scanLines? isFolded column before with
  | case1 => simp_all
  | case2 => simp at read
  | case3 before more next line ih =>
      have := ih read
      have := BlockText.remaining_of_line? (Bool.eq_false_iff.2 more) line
      omega

/-- The text of a block scalar whose lines are all read. Version 1.2 adds a line end that is
missing at the end of the text. -/
def BlockText.finish (block : BlockText) (chomp : Chomp) (column : Nat) : List Char :=
  let kept := if chomp = .strip then block.text else block.lastBreak.reverse ++ block.text
  let ended :=
    if block.cursor.version = .v12 && chomp ≠ .strip && block.cursor.atEnd
        && max column 1 ≤ block.cursor.column then '\n' :: kept
    else kept
  (if chomp = .keep then block.breaks ++ ended else ended).reverse

/-- The text of a block scalar that the end of the text leaves without lines: `header` is the line
end after its header, `breaks` what further line ends stand for. -/
def emptyBlock (chomp : Chomp) (header breaks : List Char) : List Char :=
  match chomp with
  | .strip => []
  | .clip => header
  | .keep => if header.isEmpty || breaks.isEmpty then header else breaks.reverse

/-- Passes the rest of the line after a block scalar's header. Version 1.1 takes a comment
directly after the header. -/
def Cursor.passHeaderLine? (cursor : Cursor) : Option Cursor :=
  match cursor.version with
  | .v12 => cursor.passLine?
  | .v11 =>
      let blanks := cursor.skipWhile isBlank
      let next := if blanks.starts '#' then blanks.skipLine else blanks
      if next.atLineEnd then some next else none

theorem Cursor.remaining_of_passHeaderLine? {cursor next : Cursor}
    (passed : cursor.passHeaderLine? = some next) : next.remaining ≤ cursor.remaining := by
  unfold passHeaderLine? at passed
  split at passed
  · exact remaining_of_passLine? passed
  · have blanks_le := cursor.remaining_skipWhile_le isBlank
    have line_le : (cursor.skipWhile isBlank).skipLine.remaining
        ≤ (cursor.skipWhile isBlank).remaining := remaining_skipWhile_le _ _
    simp only [Option.ite_none_right_eq_some, Option.some.injEq] at passed
    obtain ⟨_, rfl⟩ := passed
    split <;> omega

/-- The column of a block scalar's lines, when the first line that is not empty decides. -/
def autoColumn (version : Version) (indent : Int) (widest : Nat) : Nat :=
  match version with
  | .v12 => max widest (indent + 1).toNat
  | .v11 => max (max widest (indent + 1).toNat) 1

/-- Reads a block scalar after its indicator; gives its text and the place after it. -/
def scanBlock? (isFolded : Bool) (indent : Int) (start : Cursor) : Option (List Char × Cursor) := do
  let version := start.version
  let header ← blockHeader? start.rest
  let headerEnd ← (start.skip header.length).passHeaderLine?
  let headerBreak := headerEnd.breakText
  let body := headerEnd.skipBreak
  if version = .v12 && body.starts '\t' then none
  else
    let fixed :=
      if 0 < header.increment then some ((max indent 0).toNat + header.increment) else none
    let lines ← passEmptyLines? fixed [] 0 body
    let column := fixed.getD (autoColumn version indent lines.widest)
    let place := lines.cursor
    if version = .v12 && place.atEnd then
      some (emptyBlock header.chomp headerBreak lines.breaks, place)
    else if version = .v12 && place.column < column && indent < (place.column : Int) then none
    else
      let block ← scanLines? isFolded column ⟨[], [], lines.breaks, false, place⟩
      some (block.finish header.chomp column, block.cursor)

theorem remaining_of_scanBlock? {isFolded : Bool} {indent : Int} {start next : Cursor}
    {text : List Char} (read : scanBlock? isFolded indent start = some (text, next)) :
    next.remaining ≤ start.remaining := by
  simp only [scanBlock?, Option.bind_eq_bind, Option.bind_eq_some_iff,
    Option.ite_none_left_eq_some] at read
  obtain ⟨header, _, headerEnd, passed, _, lines, empty, read⟩ := read
  have header_le := Cursor.remaining_of_passHeaderLine? passed
  have body_le := headerEnd.remaining_skipBreak_le
  have empty_le := remaining_of_passEmptyLines? empty
  rw [Cursor.remaining_skip] at header_le
  split at read
  · simp only [Option.some.injEq, Prod.mk.injEq] at read
    obtain ⟨_, rfl⟩ := read
    omega
  · simp only [Option.ite_none_left_eq_some, Option.bind_eq_some_iff, Option.some.injEq,
      Prod.mk.injEq] at read
    obtain ⟨_, block, scanned, _, rfl⟩ := read
    have lines_le : block.cursor.remaining ≤ lines.cursor.remaining :=
      remaining_of_scanLines? scanned
    omega

namespace Scan

/-- Prepares for a block scalar: in version 1.2 it is a candidate for a key itself, in version 1.1
the current candidate is given up. -/
def openBlock? (scan : Scan) : Option Scan :=
  if scan.isCurrent then some scan.saveCandidate.unrollColumns else scan.dropCandidate?

/-- Reads a block scalar. A key may start after it. -/
def block? (scan : Scan) (isFolded : Bool) : Option Scan := do
  let start := scan.cursor
  let opened ← scan.openBlock?
  let (text, next) ← scanBlock? isFolded opened.indent (start.skip 1)
  some (((opened.allowKey true).moveTo next).push
    (.scalar (if isFolded then .folded else .literal) text) start.column)

theorem remaining_of_block? {scan next : Scan} {isFolded : Bool} {c : Char} {tail : List Char}
    (rest : scan.cursor.rest = c :: tail) (read : scan.block? isFolded = some next) :
    next.cursor.remaining < scan.cursor.remaining := by
  have := Cursor.remaining_skip_lt Nat.one_pos rest
  simp only [block?, Option.bind_eq_bind, Option.bind_eq_some_iff, Option.some.injEq,
    Prod.exists] at read
  obtain ⟨_, _, text, last, scanned, rfl⟩ := read
  have := remaining_of_scanBlock? scanned
  simp only [cursor_push, cursor_moveTo]
  omega

end Scan

end MapBlocks.Yaml
