import MapBlocks.Decimal.Numeral
import MapBlocks.Yaml.Token.Folding
import MapBlocks.Yaml.Token.Space

/-!
# Quoted scalars

In single quotes a quote is written twice. In double quotes a backslash starts an escape, and one
before a line end joins the two lines.
-/

namespace MapBlocks.Yaml

/-- The character of a one-letter escape. -/
def escaped? : Char → Option Char
  | '0' => some '\x00'
  | 'a' => some '\x07'
  | 'b' => some '\x08'
  | 't' => some '\t'
  | '\t' => some '\t'
  | 'n' => some '\n'
  | 'v' => some '\x0b'
  | 'f' => some '\x0c'
  | 'r' => some '\r'
  | 'e' => some '\x1b'
  | ' ' => some ' '
  | '"' => some '"'
  | '/' => some '/'
  | '\\' => some '\\'
  | 'N' => some '\u0085'
  | '_' => some '\u00a0'
  | 'L' => some '\u2028'
  | 'P' => some '\u2029'
  | _ => none

/-- How many hexadecimal digits an escape has. -/
def escapeDigits? : Char → Option Nat
  | 'x' => some 2
  | 'u' => some 4
  | 'U' => some 8
  | _ => none

/-- The character that an escape stands for, and the length of the escape, given the text after
the backslash. -/
def escape? : List Char → Option (Char × Nat)
  | [] => none
  | c :: rest =>
      match escapeDigits? c with
      | none => (escaped? c).map fun plain => (plain, 2)
      | some count => do
          let digits := rest.take count
          if digits.length < count then none
          else
            let code ← Decimal.natural? 16 digits
            if code.isValidChar then some (Char.ofNat code, count + 2) else none

/-- One element of a quoted scalar. -/
inductive QuotedStep where
  | close
  /-- Characters, and how many characters write them. -/
  | add (characters : List Char) (length : Nat)
  /-- An escaped line end, and its length. -/
  | join (length : Nat)

/-- The next element of a quoted scalar, at a character that is no gap. -/
def quotedStep? (version : Version) (double : Bool) : List Char → Option QuotedStep
  | [] => none
  | c :: rest =>
      if double then
        if c = '"' then some .close
        else if c = '\\' then
          let breakLength := version.breakLength rest
          if 0 < breakLength then some (.join (breakLength + 1))
          else (escape? rest).map fun (character, length) => .add [character] length
        else some (.add [c] 1)
      else if c = '\'' then
        if rest.head? = some '\'' then some (.add ['\''] 2) else some .close
      else some (.add [c] 1)

/-- Reads a quoted scalar after its opening quote; gives its text and the place after its closing
quote. In version 1.2 its lines must not be indented less than the collection around it. -/
def scanQuoted? (double : Bool) (indent : Int) (folding : Folding) (cursor : Cursor) :
    Option (List Char × Cursor) :=
  match _ : cursor.rest with
  | [] => none
  | c :: tail =>
      if isBlank c then
        if cursor.version = .v12 && folding.broken && cursor.tabBefore indent then none
        else scanQuoted? double indent (folding.addBlank c) (cursor.skip 1)
      else if cursor.version.isBreak c then
        scanQuoted? double indent (folding.addBreak cursor.breakText)
          (cursor.skip (max 1 (cursor.version.breakLength (c :: tail))))
      else if cursor.atDocumentMark then none
      else if cursor.version = .v12 && (cursor.column : Int) < indent then none
      else match quotedStep? cursor.version double (c :: tail) with
        | none => none
        | some .close => some (folding.join.result, cursor.skip 1)
        | some (.add characters length) =>
            scanQuoted? double indent (folding.add characters) (cursor.skip (max 1 length))
        | some (.join length) =>
            scanQuoted? double indent folding.addEscapedBreak (cursor.skip (max 1 length))
termination_by cursor.remaining
decreasing_by all_goals exact Cursor.remaining_skip_lt (by omega) (by assumption)

theorem remaining_of_scanQuoted? {double : Bool} {indent : Int} {folding : Folding}
    {cursor next : Cursor} {text : List Char}
    (read : scanQuoted? double indent folding cursor = some (text, next)) :
    next.remaining ≤ cursor.remaining := by
  fun_induction scanQuoted? double indent folding cursor generalizing text next with
  | case1 => simp at read
  | case2 => simp at read
  | case3 folding cursor _ _ _ _ _ ih =>
      have := ih read
      simp only [Cursor.remaining_skip] at this
      omega
  | case4 folding cursor _ _ _ _ _ ih =>
      have := ih read
      simp only [Cursor.remaining_skip] at this
      omega
  | case5 => simp at read
  | case6 => simp at read
  | case7 => simp at read
  | case8 =>
      simp only [Option.some.injEq, Prod.mk.injEq] at read
      obtain ⟨_, rfl⟩ := read
      simp
  | case9 _ _ _ _ _ _ _ _ _ _ _ _ ih =>
      have := ih read
      simp only [Cursor.remaining_skip] at this
      omega
  | case10 _ _ _ _ _ _ _ _ _ _ _ ih =>
      have := ih read
      simp only [Cursor.remaining_skip] at this
      omega

namespace Scan

/-- Whether something may follow a quoted scalar that starts on the given line, by the rules of
version 1.2. -/
def mayFollowQuoted (scan : Scan) (line : Nat) : Bool :=
  let cursor := scan.cursor
  cursor.atLineEnd
    || (scan.inFlow
      && (cursor.starts ',' || cursor.starts ']' || cursor.starts '\x7d' || cursor.starts ':'))
    || (!scan.inFlow && cursor.starts ':' && line = cursor.line)

def quoted? (scan : Scan) (double : Bool) : Option Scan := do
  let start := scan.cursor
  let opened := scan.saveCandidate.allowKey false
  let (text, next) ← scanQuoted? double scan.indent .empty (start.skip 1)
  let closed := opened.moveTo next
  let token : Token := .scalar (if double then .doubleQuoted else .singleQuoted) text
  if !scan.isCurrent then some (closed.push token start.column)
  else
    let passed ← closed.passBlanks?
    if !passed.mayFollowQuoted start.line then none
    else
      let followed ← passed.toToken?
      some ({ followed with adjacentValue := followed.cursor.index }.push token start.column)

theorem remaining_of_quoted? {scan next : Scan} {double : Bool} {c : Char} {tail : List Char}
    (rest : scan.cursor.rest = c :: tail) (read : scan.quoted? double = some next) :
    next.cursor.remaining < scan.cursor.remaining := by
  have := Cursor.remaining_skip_lt Nat.one_pos rest
  simp only [quoted?, Option.bind_eq_bind, Option.bind_eq_some_iff, Prod.exists] at read
  obtain ⟨_, closing, quoted, read⟩ := read
  have := remaining_of_scanQuoted? quoted
  split at read
  · simp only [Option.some.injEq] at read
    subst read
    simp
    omega
  · simp only [Option.bind_eq_some_iff] at read
    obtain ⟨passed, blanks, read⟩ := read
    have := remaining_of_passBlanks? blanks
    split at read
    · simp at read
    · simp only [Option.bind_eq_some_iff, Option.some.injEq] at read
      obtain ⟨followed, moved, rfl⟩ := read
      have := remaining_of_toToken? moved
      simp_all
      omega

end Scan

end MapBlocks.Yaml
