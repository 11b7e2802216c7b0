import MapBlocks.Yaml.Token.Folding
import MapBlocks.Yaml.Token.Space

/-!
# Plain scalars

A scalar without quotes ends before a colon that a gap follows, before a comment, in flow
collections before a comma or bracket, and in block collections where the indentation ends.
-/

namespace MapBlocks.Yaml

/-- Whether a character of a plain scalar may stand before the given text. -/
def mayContinuePlain (version : Version) (inFlow : Bool) (c : Char) (rest : List Char) : Bool :=
  if c = ':' then
    !version.isGap rest.head? && !(version = .v12 && inFlow && rest.head?.any isFlow)
  else !(inFlow && isFlow c)

/-- Whether a colon inside a flow collection stands directly before another indicator, which
version 1.1 does not allow in a plain scalar. -/
def isStrayColon (version : Version) (inFlow : Bool) (c : Char) (rest : List Char) : Bool :=
  version = .v11 && inFlow && c = ':' && rest.head?.any fun next => isFlow next || next = '?'

/-- Reads on in a plain scalar; gives its text so far with what is pending, and the place where it
ends. `column` is the least column of its further lines. -/
def scanPlain? (inFlow : Bool) (column : Int) (folding : Folding) (cursor : Cursor) :
    Option (Folding × Cursor) :=
  match _ : cursor.rest with
  | [] => some (folding, cursor)
  | c :: tail =>
      if isBlank c then
        if folding.broken && cursor.tabBefore column then
          match cursor.version with
          | .v11 => none
          | .v12 => match cursor.lineFiller? with
            | none => none
            | some length => scanPlain? inFlow column folding (cursor.skip (max 1 length))
        else scanPlain? inFlow column (folding.addBlank c) (cursor.skip 1)
      else if cursor.version.isBreak c then
        scanPlain? inFlow column (folding.addBreak cursor.breakText)
          (cursor.skip (max 1 (cursor.version.breakLength (c :: tail))))
      else
        let wordStarts := folding.broken || !folding.blanks.isEmpty || folding.text.isEmpty
        if !inFlow && folding.broken && (cursor.column : Int) < column then some (folding, cursor)
        else if wordStarts && (cursor.atDocumentMark || c = '#') then some (folding, cursor)
        else if cursor.version = .v12 && wordStarts && inFlow && c = '-'
            && tail.head?.any isFlow then none
        else if isStrayColon cursor.version inFlow c tail then none
        else if mayContinuePlain cursor.version inFlow c tail then
          scanPlain? inFlow column (folding.add [c]) (cursor.skip 1)
        else some (folding, cursor)
termination_by cursor.remaining
decreasing_by all_goals exact Cursor.remaining_skip_lt (by omega) (by assumption)

/-- Either nothing is read, or what is read takes at least one character. -/
theorem remaining_of_scanPlain? {inFlow : Bool} {column : Int} {before after : Folding}
    {cursor next : Cursor} (read : scanPlain? inFlow column before cursor = some (after, next)) :
    after = before ∧ next = cursor ∨ next.remaining < cursor.remaining := by
  have passed {count : Nat} {folding : Folding} {cursor : Cursor} {c : Char} {tail : List Char}
      (positive : 0 < count) (rest : cursor.rest = c :: tail)
      (later : after = folding ∧ next = cursor.skip count
        ∨ next.remaining < (cursor.skip count).remaining) :
      next.remaining < cursor.remaining := by
    have := Cursor.remaining_skip_lt positive rest
    rcases later with ⟨_, rfl⟩ | later <;> omega
  fun_induction scanPlain? inFlow column before cursor with
  | case1 => simp_all
  | case2 => simp at read
  | case3 => simp at read
  | case4 _ _ _ _ rest _ _ _ _ _ ih => exact .inr (passed (by omega) rest (ih read))
  | case5 _ _ _ _ rest _ _ ih => exact .inr (passed (by omega) rest (ih read))
  | case6 _ _ _ _ rest _ _ ih => exact .inr (passed (by omega) rest (ih read))
  | case7 => simp_all
  | case8 => simp_all
  | case9 => simp at read
  | case10 => simp at read
  | case11 _ _ _ _ rest _ _ _ _ _ _ _ _ ih => exact .inr (passed (by omega) rest (ih read))
  | case12 => simp_all

namespace Scan

/-- Reads a plain scalar. After one that takes up whole lines a key may start. -/
def plain? (scan : Scan) : Option Scan := do
  let start := scan.cursor
  let opened := scan.saveCandidate.allowKey false
  let base := if scan.isCurrent then opened.unrollColumns else opened
  let column := base.indent + 1
  if scan.isCurrent && scan.inFlow && (start.column : Int) < column then none
  else
    let (folding, next) ← scanPlain? scan.inFlow column .empty start
    if folding.text.isEmpty then none
    else
      some ((base.allowKey folding.broken).moveTo next |>.push (.scalar .plain folding.result)
        start.column)

theorem remaining_of_plain? {scan next : Scan} (read : scan.plain? = some next) :
    next.cursor.remaining < scan.cursor.remaining := by
  simp only [plain?, Option.bind_eq_bind, Option.ite_none_left_eq_some, Option.bind_eq_some_iff,
    Option.some.injEq, Prod.exists] at read
  obtain ⟨_, folding, last, scanned, nonempty, rfl⟩ := read
  rcases remaining_of_scanPlain? scanned with ⟨rfl, _⟩ | shorter
  · simp [Folding.empty] at nonempty
  · exact shorter

end Scan

end MapBlocks.Yaml
