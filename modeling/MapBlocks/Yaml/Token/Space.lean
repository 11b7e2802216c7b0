import MapBlocks.Yaml.Token.Scan

/-!
# Blanks, comments and line ends

What may stand between tokens, and what may follow a token on its line.
-/

namespace MapBlocks.Yaml

/-- Blanks on a line and the comment after them. -/
structure Filler where
  length : Nat
  /-- Whether a tab is among the blanks. -/
  tabs : Bool
  /-- Whether a space is among the blanks. -/
  spaces : Bool

namespace Cursor

/-- The blanks and the comment that are next; a comment must have a blank before it. Tabs count as
blanks only if `tabsToo` is set. -/
def filler? (cursor : Cursor) (tabsToo : Bool) : Option Filler :=
  let blanks := cursor.upTo fun c => c = ' ' || (tabsToo && c = '\t')
  let next := cursor.skip blanks.length
  if next.starts '#' then
    if blanks.isEmpty then none
    else some ⟨blanks.length + next.restOfLine.length, blanks.contains '\t', blanks.contains ' '⟩
  else some ⟨blanks.length, blanks.contains '\t', blanks.contains ' '⟩

/-- The length of the rest of a line that must hold nothing but blanks and a comment. -/
def lineFiller? (cursor : Cursor) : Option Nat := do
  let filler ← cursor.filler? true
  if (cursor.skip filler.length).atLineEnd then some filler.length else none

/-- The end of a line of which the rest must hold nothing but blanks and a comment. -/
def passLine? (cursor : Cursor) : Option Cursor :=
  cursor.lineFiller?.map fun length => cursor.skip length

theorem remaining_of_passLine? {cursor next : Cursor} (passed : cursor.passLine? = some next) :
    next.remaining ≤ cursor.remaining := by
  obtain ⟨_, _, rfl⟩ := Option.map_eq_some_iff.1 passed
  simp

/-- Whether a tab is next, to the left of a column. -/
def tabBefore (cursor : Cursor) (column : Int) : Bool :=
  cursor.starts '\t' && (cursor.column : Int) < column

end Cursor

namespace Scan

/-- Passes blanks on the line, and a comment, by the rules of version 1.2. -/
def passBlanks? (scan : Scan) : Option Scan :=
  if scan.isCurrent then (scan.cursor.filler? true).map fun filler => scan.skip filler.length
  else some scan

theorem remaining_of_passBlanks? {scan next : Scan} (passed : scan.passBlanks? = some next) :
    next.cursor.remaining ≤ scan.cursor.remaining := by
  unfold passBlanks? at passed
  split at passed
  · obtain ⟨_, _, rfl⟩ := Option.map_eq_some_iff.1 passed
    simp
  · simp_all

/-- Passes a line end. In block collections a key may start on the new line. -/
def passBreak (scan : Scan) : Scan :=
  let next := scan.moveTo scan.cursor.skipBreak
  if scan.inFlow then next else next.allowKey true

@[simp]
theorem cursor_passBreak (scan : Scan) : scan.passBreak.cursor = scan.cursor.skipBreak := by
  unfold passBreak
  dsimp only
  split <;> rfl

/-- Whether a tab at this place is part of a line's indentation, where it may only come before
nothing else. -/
def tabIndents (scan : Scan) : Bool :=
  !scan.levels.isEmpty && scan.cursor.leading && scan.outdented

/-- How many blanks, or characters of a comment, are next. In version 1.1 a tab does not separate
tokens where a key may start in a block collection. -/
def fillerLength? (scan : Scan) : Option Nat :=
  let cursor := scan.cursor
  if cursor.starts '#' then some cursor.restOfLine.length
  else if cursor.starts ' ' then some (cursor.upTo (· = ' ')).length
  else if scan.isCurrent then
    if !cursor.starts '\t' then some 0
    else if scan.tabIndents then cursor.lineFiller?
    else some 1
  else
    let passable := (cursor.starts '\t' && (scan.inFlow || !scan.keyAllowed))
      || (cursor.index = 0 && cursor.starts '\ufeff')
    some (if passable then 1 else 0)

/-- Moves to the start of the next token. -/
def toToken? (scan : Scan) : Option Scan :=
  match _ : scan.cursor.rest with
  | [] => some scan
  | _ :: _ =>
      if _ : scan.cursor.atBreak then toToken? scan.passBreak
      else match scan.fillerLength? with
        | none => none
        | some 0 => some scan
        | some (count + 1) => toToken? (scan.skip (count + 1))
termination_by scan.cursor.remaining
decreasing_by
  · rw [cursor_passBreak]
    exact Cursor.remaining_skipBreak_lt (by assumption)
  · exact Cursor.remaining_skip_lt (by omega) (by assumption)

theorem remaining_of_toToken? {scan next : Scan} (passed : scan.toToken? = some next) :
    next.cursor.remaining ≤ scan.cursor.remaining := by
  fun_induction toToken? scan generalizing next with
  | case1 => simp_all
  | case2 scan _ _ _ atBreak ih =>
      have := ih passed
      have := Cursor.remaining_skipBreak_lt atBreak
      simp only [cursor_passBreak] at *
      omega
  | case3 => simp at passed
  | case4 => simp_all
  | case5 scan _ _ _ _ count _ ih =>
      have := ih passed
      simp only [cursor_skip, Cursor.remaining_skip] at this
      omega

/-- Passes spaces, comments and line ends after the mark of a key, of which there must be one, by
the rules of version 1.2. -/
def passAfterMark? (scan : Scan) (needed : Bool) : Option Scan :=
  match _ : scan.cursor.rest with
  | [] => if needed then none else some scan
  | c :: _ =>
      if _ : scan.cursor.atBreak then passAfterMark? scan.passBreak false
      else if c = ' ' then passAfterMark? (scan.skip 1) false
      else if c = '#' then passAfterMark? (scan.skip (max 1 scan.cursor.restOfLine.length)) needed
      else if needed then none else some scan
termination_by scan.cursor.remaining
decreasing_by
  · rw [cursor_passBreak]
    exact Cursor.remaining_skipBreak_lt (by assumption)
  all_goals exact Cursor.remaining_skip_lt (by omega) (by assumption)

theorem remaining_of_passAfterMark? {scan next : Scan} {needed : Bool}
    (passed : scan.passAfterMark? needed = some next) :
    next.cursor.remaining ≤ scan.cursor.remaining := by
  fun_induction passAfterMark? scan needed generalizing next with
  | case1 => simp at passed
  | case2 => simp_all
  | case3 scan _ _ _ _ atBreak ih =>
      have := ih passed
      have := Cursor.remaining_skipBreak_lt atBreak
      simp only [cursor_passBreak] at *
      omega
  | case4 scan _ _ _ _ ih =>
      have := ih passed
      simp only [cursor_skip, Cursor.remaining_skip] at this
      omega
  | case5 scan _ _ _ _ _ ih =>
      have := ih passed
      simp only [cursor_skip, Cursor.remaining_skip] at this
      omega
  | case6 => simp at passed
  | case7 => simp_all

end Scan

end MapBlocks.Yaml
