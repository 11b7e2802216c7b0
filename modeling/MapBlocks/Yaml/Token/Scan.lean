import MapBlocks.Yaml.Cursor
import MapBlocks.Yaml.Token

/-!
# The state of scanning

While a YAML text is divided into tokens, the scan keeps the indentation of the open block
collections, and for each open flow collection the token that would become a key if a colon
followed it.
-/

namespace MapBlocks.Yaml

/-- A token and where it starts. -/
structure Placed where
  token : Token
  column : Nat

/-- A token that may turn out to start a key that nothing marks. -/
structure KeyCandidate where
  /-- Whether a colon may still make it a key. -/
  possible : Bool
  /-- Whether it must be a key, as nothing else may stand at its column. -/
  required : Bool
  /-- How many tokens come before it. -/
  number : Nat
  index : Nat
  line : Nat
  column : Nat

/-- A level of indentation that is left when the indentation decreases. -/
structure Level where
  /-- The indentation outside of it. -/
  outer : Int
  /-- Whether it belongs to a block collection, whose end is a token. -/
  block : Bool

/-- Whether an entry of a flow sequence is a pair without braces. -/
inductive PairState where
  | possible
  | inside
  deriving DecidableEq

/-- A scan in progress. -/
structure Scan where
  cursor : Cursor
  /-- The tokens so far, in reverse. -/
  tokens : List Placed
  /-- The current indentation; less than zero outside of every block collection. -/
  indent : Int
  levels : List Level
  /-- How many flow collections are open. -/
  flowLevel : Nat
  /-- Whether a key that nothing marks may start here. -/
  keyAllowed : Bool
  /-- The candidate of the current collection. -/
  candidate : KeyCandidate
  /-- The candidates of the collections around it. -/
  outerCandidates : List KeyCandidate
  /-- The index at which a colon needs no blank after it, as a quoted key ends there. -/
  adjacentValue : Nat
  /-- Whether a flow mapping has been opened or a key marked within flow collections. -/
  mappingStarted : Bool
  /-- The open flow sequences. -/
  pairs : List PairState

def KeyCandidate.none : KeyCandidate := ⟨false, false, 0, 0, 0, 0⟩

namespace Scan

def start (version : Version) (text : List Char) : Scan where
  cursor := .start version text
  tokens := []
  indent := -1
  levels := []
  flowLevel := 0
  keyAllowed := true
  candidate := .none
  outerCandidates := []
  adjacentValue := 0
  mappingStarted := false
  pairs := []

/-- Whether the text is read by the rules of version 1.2. -/
def isCurrent (scan : Scan) : Bool := scan.cursor.version = .v12

/-- Whether the scan is inside a flow collection. -/
def inFlow (scan : Scan) : Bool := 0 < scan.flowLevel

/-- Whether the next character stands to the left of the current indentation. -/
def outdented (scan : Scan) : Bool := (scan.cursor.column : Int) < scan.indent

/-- Whether the innermost level belongs to a block collection. -/
def inBlock (scan : Scan) : Bool := scan.levels.head?.any Level.block

/-- Adds a token that starts in the given column. -/
def push (scan : Scan) (token : Token) (column : Nat) : Scan :=
  { scan with tokens := ⟨token, column⟩ :: scan.tokens }

/-- Inserts a token that has the given number of tokens before it. -/
def insertAt (scan : Scan) (number : Nat) (token : Token) (column : Nat) : Scan :=
  let later := scan.tokens.length - number
  { scan with tokens := scan.tokens.take later ++ ⟨token, column⟩ :: scan.tokens.drop later }

/-- Notes whether a key may start next. -/
def allowKey (scan : Scan) (allowed : Bool) : Scan := { scan with keyAllowed := allowed }

def moveTo (scan : Scan) (cursor : Cursor) : Scan := { scan with cursor := cursor }

def skip (scan : Scan) (count : Nat) : Scan := scan.moveTo (scan.cursor.skip count)

/-- Notes that the next token may start a key. -/
def saveCandidate (scan : Scan) : Scan :=
  if !scan.keyAllowed then scan
  else
    let cursor := scan.cursor
    let required := !scan.inFlow && scan.indent = cursor.column && scan.inBlock
    { scan with
      candidate := ⟨true, required, scan.tokens.length, cursor.index, cursor.line, cursor.column⟩ }

/-- Gives up the current candidate, which must not be required. -/
def dropCandidate? (scan : Scan) : Option Scan :=
  if scan.candidate.possible && scan.candidate.required then none
  else some { scan with candidate := { scan.candidate with possible := false } }

/-- Gives up a candidate that is too far away: a key without a mark takes one line and at most
1024 characters. -/
def KeyCandidate.refresh? (cursor : Cursor) (candidate : KeyCandidate) : Option KeyCandidate :=
  if candidate.possible
      && (candidate.line < cursor.line || candidate.index + 1024 < cursor.index) then
    if candidate.required then none else some { candidate with possible := false }
  else some candidate

/-- Gives up all candidates that are too far away. In version 1.2 keys inside flow collections may
take several lines. -/
def refreshCandidates? (scan : Scan) : Option Scan :=
  if scan.isCurrent && scan.inFlow then some scan
  else do
    let candidate ← KeyCandidate.refresh? scan.cursor scan.candidate
    let outer ← scan.outerCandidates.mapM (KeyCandidate.refresh? scan.cursor)
    some { scan with candidate := candidate, outerCandidates := outer }

/-- Leaves the levels of the given list that lie to the right of a column. -/
def leaveLevels (column : Int) (place : Nat) :
    List Level → Int → List Placed → Int × List Level × List Placed
  | [], indent, tokens => (indent, [], tokens)
  | level :: levels, indent, tokens =>
      if column < indent then
        leaveLevels column place levels level.outer
          (if level.block then ⟨.blockEnd, place⟩ :: tokens else tokens)
      else (indent, level :: levels, tokens)

/-- Ends the block collections whose indentation is greater than a column. -/
def unroll (scan : Scan) (column : Int) : Scan :=
  if scan.inFlow then scan
  else
    let (indent, levels, tokens) :=
      leaveLevels column scan.cursor.column scan.levels scan.indent scan.tokens
    { scan with indent := indent, levels := levels, tokens := tokens }

/-- Starts a block collection at a column, if that is to the right of the current one. Its token
comes after `number` others. -/
def roll (scan : Scan) (column : Nat) (number : Nat) (token : Token) : Scan :=
  if scan.inFlow then scan
  else
    let inner : Scan := match scan.levels with
      | level :: levels =>
          if scan.indent ≤ (column : Int) && !level.block then
            { scan with indent := level.outer, levels := levels }
          else scan
      | [] => scan
    if inner.indent < (column : Int) then
      let opened : Scan :=
        { inner with indent := column, levels := ⟨inner.indent, true⟩ :: inner.levels }
      opened.insertAt number token column
    else inner

/-- Asks for one more column of indentation, by the rules of version 1.2. -/
def rollOneColumn (scan : Scan) : Scan :=
  if scan.isCurrent && !scan.inFlow && scan.inBlock then
    { scan with indent := scan.indent + 1, levels := ⟨scan.indent, false⟩ :: scan.levels }
  else scan

/-- Leaves the levels that were opened for one more column. -/
def leaveColumns : List Level → Int → Int × List Level
  | [], indent => (indent, [])
  | level :: levels, indent =>
      if level.block then (indent, level :: levels) else leaveColumns levels level.outer

/-- Goes back to the indentation of the innermost block collection. -/
def unrollColumns (scan : Scan) : Scan :=
  let (indent, levels) := leaveColumns scan.levels scan.indent
  { scan with indent := indent, levels := levels }

/-! Only `moveTo` and `skip` change the place. -/

@[simp]
theorem cursor_moveTo (scan : Scan) (cursor : Cursor) : (scan.moveTo cursor).cursor = cursor := rfl

@[simp]
theorem cursor_skip (scan : Scan) (count : Nat) :
    (scan.skip count).cursor = scan.cursor.skip count := rfl

@[simp]
theorem cursor_push (scan : Scan) (token : Token) (column : Nat) :
    (scan.push token column).cursor = scan.cursor := rfl

@[simp]
theorem cursor_insertAt (scan : Scan) (number : Nat) (token : Token) (column : Nat) :
    (scan.insertAt number token column).cursor = scan.cursor := rfl

@[simp]
theorem cursor_allowKey (scan : Scan) (allowed : Bool) :
    (scan.allowKey allowed).cursor = scan.cursor := rfl

@[simp]
theorem cursor_saveCandidate (scan : Scan) : scan.saveCandidate.cursor = scan.cursor := by
  unfold saveCandidate
  split <;> rfl

theorem cursor_of_dropCandidate? {scan next : Scan} (dropped : scan.dropCandidate? = some next) :
    next.cursor = scan.cursor := by
  unfold dropCandidate? at dropped
  split at dropped
  · simp at dropped
  · simp only [Option.some.injEq] at dropped
    rw [← dropped]

theorem cursor_of_refreshCandidates? {scan next : Scan}
    (refreshed : scan.refreshCandidates? = some next) : next.cursor = scan.cursor := by
  unfold refreshCandidates? at refreshed
  split at refreshed
  · simp_all
  · simp only [Option.bind_eq_bind, Option.bind_eq_some_iff, Option.some.injEq] at refreshed
    obtain ⟨_, _, _, _, rfl⟩ := refreshed
    rfl

@[simp]
theorem cursor_unroll (scan : Scan) (column : Int) : (scan.unroll column).cursor = scan.cursor := by
  unfold unroll
  split <;> rfl

@[simp]
theorem cursor_roll (scan : Scan) (column number : Nat) (token : Token) :
    (scan.roll column number token).cursor = scan.cursor := by
  unfold roll
  split
  · rfl
  · dsimp only
    split
    · split <;> split <;> rfl
    · split <;> rfl

@[simp]
theorem cursor_rollOneColumn (scan : Scan) : scan.rollOneColumn.cursor = scan.cursor := by
  unfold rollOneColumn
  split <;> rfl

@[simp]
theorem cursor_unrollColumns (scan : Scan) : scan.unrollColumns.cursor = scan.cursor := rfl

end Scan

end MapBlocks.Yaml
