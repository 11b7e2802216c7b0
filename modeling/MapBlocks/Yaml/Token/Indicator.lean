import MapBlocks.Yaml.Token.Space

/-!
# Indicators

The characters that make up collections: brackets and commas of flow collections, the hyphens of
block sequences, and the marks of keys and values. Each of them takes at least one character.
-/

namespace MapBlocks.Yaml.Scan

/-- How many flow collections may be open at once in version 1.2. -/
def flowLimit : Nat := 255

/-- Goes into a flow collection. -/
def enterFlow (scan : Scan) (token : Token) : Scan :=
  { scan with
    flowLevel := scan.flowLevel + 1
    keyAllowed := true
    candidate := .none
    outerCandidates := scan.candidate :: scan.outerCandidates
    mappingStarted := scan.mappingStarted || token == .flowMappingStart
    pairs := if token == .flowSequenceStart then .possible :: scan.pairs else scan.pairs }

def openFlow? (scan : Scan) (token : Token) : Option Scan :=
  let saved := scan.saveCandidate.rollOneColumn
  if saved.isCurrent && saved.flowLevel = flowLimit then none
  else ((saved.enterFlow token).skip 1).passBlanks?.map (·.push token scan.cursor.column)

theorem remaining_of_openFlow? {scan next : Scan} {token : Token} {c : Char} {tail : List Char}
    (rest : scan.cursor.rest = c :: tail) (read : scan.openFlow? token = some next) :
    next.cursor.remaining < scan.cursor.remaining := by
  have := Cursor.remaining_skip_lt Nat.one_pos rest
  simp only [openFlow?, Option.ite_none_left_eq_some, Option.map_eq_some_iff] at read
  obtain ⟨_, passed, blanks, rfl⟩ := read
  have := remaining_of_passBlanks? blanks
  simp only [cursor_skip, cursor_push, enterFlow, cursor_rollOneColumn, cursor_saveCandidate] at *
  omega

/-- Ends a pair without braces in a flow sequence, if one is open. -/
def endPair (scan : Scan) : Scan :=
  match scan.pairs with
  | .inside :: outer =>
      { scan with mappingStarted := false, pairs := .possible :: outer }.push .flowMappingEnd
        scan.cursor.column
  | _ => scan

@[simp]
theorem cursor_endPair (scan : Scan) : scan.endPair.cursor = scan.cursor := by
  unfold endPair
  split <;> rfl

/-- Goes out of a flow collection. -/
def leaveFlow (scan : Scan) : Scan :=
  match scan.outerCandidates with
  | outer :: others =>
      { scan with flowLevel := scan.flowLevel - 1, candidate := outer, outerCandidates := others }
  | [] => scan

@[simp]
theorem cursor_leaveFlow (scan : Scan) : scan.leaveFlow.cursor = scan.cursor := by
  unfold leaveFlow
  split <;> rfl

/-- Goes out of a flow sequence, whose last entry may be a pair without braces. -/
def leavePairs (scan : Scan) : Scan :=
  let ended := scan.endPair
  { ended with pairs := ended.pairs.tail }

@[simp]
theorem cursor_leavePairs (scan : Scan) : scan.leavePairs.cursor = scan.cursor :=
  cursor_endPair scan

/-- Notes that a colon at this place is that of a value, if it is inside a flow collection. -/
def allowAdjacent (scan : Scan) : Scan :=
  if scan.inFlow then { scan with adjacentValue := scan.cursor.index } else scan

@[simp]
theorem cursor_allowAdjacent (scan : Scan) : scan.allowAdjacent.cursor = scan.cursor := by
  unfold allowAdjacent
  split <;> rfl

def closeFlow? (scan : Scan) (token : Token) : Option Scan := do
  let dropped ← scan.dropCandidate?
  let left := dropped.leaveFlow
  let ended := if scan.isCurrent && token == .flowSequenceEnd then left.leavePairs else left
  let passed ← ((ended.allowKey false).skip 1).passBlanks?
  some (passed.allowAdjacent.push token scan.cursor.column)

theorem remaining_of_closeFlow? {scan next : Scan} {token : Token} {c : Char} {tail : List Char}
    (rest : scan.cursor.rest = c :: tail) (read : scan.closeFlow? token = some next) :
    next.cursor.remaining < scan.cursor.remaining := by
  have := Cursor.remaining_skip_lt Nat.one_pos rest
  simp only [closeFlow?, Option.bind_eq_bind, Option.bind_eq_some_iff, Option.some.injEq] at read
  obtain ⟨dropped, candidate, passed, blanks, rfl⟩ := read
  have := remaining_of_passBlanks? blanks
  have := cursor_of_dropCandidate? candidate
  split at blanks
  all_goals
    simp_all
    omega

def flowComma? (scan : Scan) : Option Scan := do
  let dropped ← scan.dropCandidate?
  let ended := if scan.isCurrent then dropped.endPair else dropped
  let passed ← ((ended.allowKey true).skip 1).passBlanks?
  some (passed.push .flowEntry scan.cursor.column)

theorem remaining_of_flowComma? {scan next : Scan} {c : Char} {tail : List Char}
    (rest : scan.cursor.rest = c :: tail) (read : scan.flowComma? = some next) :
    next.cursor.remaining < scan.cursor.remaining := by
  have := Cursor.remaining_skip_lt Nat.one_pos rest
  simp only [flowComma?, Option.bind_eq_bind, Option.bind_eq_some_iff, Option.some.injEq] at read
  obtain ⟨dropped, candidate, passed, blanks, rfl⟩ := read
  have := remaining_of_passBlanks? blanks
  have := cursor_of_dropCandidate? candidate
  split at blanks
  all_goals
    simp_all
    omega

/-- Whether the last token is an anchor or a tag at the start of a line. -/
def afterProperty (scan : Scan) : Bool :=
  match scan.tokens with
  | ⟨.anchor _, 0⟩ :: _ => true
  | ⟨.tag _ _, 0⟩ :: _ => true
  | _ => false

/-- Whether a hyphen that a gap follows is next. -/
def atEntryMark (scan : Scan) : Bool :=
  scan.cursor.starts '-' && scan.cursor.version.isGap scan.cursor.second?

/-- Passes the blanks after the hyphen of an entry. By the rules of version 1.2 another hyphen must
not come after a tab, and what starts on a later line is indented by one more column. -/
def passAfterHyphen? (scan : Scan) : Option Scan :=
  if scan.isCurrent then do
    let filler ← scan.cursor.filler? true
    let next := scan.skip filler.length
    if filler.tabs && next.atEntryMark then none
    else
      let more ← next.cursor.filler? false
      let moved := next.skip more.length
      some (if moved.cursor.atBreak || moved.cursor.peek?.any isFlow then moved.rollOneColumn
        else moved)
  else some scan

theorem remaining_of_passAfterHyphen? {scan next : Scan}
    (passed : scan.passAfterHyphen? = some next) :
    next.cursor.remaining ≤ scan.cursor.remaining := by
  unfold passAfterHyphen? at passed
  split at passed
  · simp only [Option.bind_eq_bind, Option.bind_eq_some_iff, Option.ite_none_left_eq_some,
      Option.some.injEq] at passed
    obtain ⟨filler, _, _, more, _, rfl⟩ := passed
    split
    all_goals
      simp
      omega
  · simp_all

/-- Reads the hyphen of an entry of a block sequence. Inside flow collections it has no place. -/
def blockHyphen? (scan : Scan) : Option Scan :=
  let column := scan.cursor.column
  if scan.inFlow || !scan.keyAllowed then none
  else if scan.isCurrent && scan.afterProperty && column = 0 && -1 < scan.indent then none
  else do
    let rolled := (scan.skip 1).roll column scan.tokens.length .blockSequenceStart
    let passed ← rolled.passAfterHyphen?
    let dropped ← passed.dropCandidate?
    some ((dropped.allowKey true).push .blockEntry column)

theorem remaining_of_blockHyphen? {scan next : Scan} {c : Char} {tail : List Char}
    (rest : scan.cursor.rest = c :: tail) (read : scan.blockHyphen? = some next) :
    next.cursor.remaining < scan.cursor.remaining := by
  have := Cursor.remaining_skip_lt Nat.one_pos rest
  simp only [blockHyphen?, Option.ite_none_left_eq_some, Option.bind_eq_bind,
    Option.bind_eq_some_iff, Option.some.injEq] at read
  obtain ⟨_, _, passed, hyphen, dropped, candidate, rfl⟩ := read
  have := remaining_of_passAfterHyphen? hyphen
  have := cursor_of_dropCandidate? candidate
  simp_all
  omega

/-- Passes what comes after the mark of a key. In version 1.2 there must be a gap, and no tab. -/
def passAfterKey? (scan : Scan) : Option Scan :=
  if scan.isCurrent then do
    let passed ← scan.passAfterMark? true
    if passed.cursor.starts '\t' then none else some passed
  else some scan

theorem remaining_of_passAfterKey? {scan next : Scan} (passed : scan.passAfterKey? = some next) :
    next.cursor.remaining ≤ scan.cursor.remaining := by
  unfold passAfterKey? at passed
  split at passed
  · simp only [Option.bind_eq_bind, Option.bind_eq_some_iff, Option.ite_none_left_eq_some,
      Option.some.injEq] at passed
    obtain ⟨_, mark, _, rfl⟩ := passed
    exact remaining_of_passAfterMark? mark
  · simp_all

/-- Notes that a key is marked. -/
def markKey (scan : Scan) : Scan :=
  { scan with keyAllowed := !scan.inFlow, mappingStarted := scan.mappingStarted || scan.inFlow }

def key? (scan : Scan) : Option Scan :=
  let column := scan.cursor.column
  if !scan.inFlow && !scan.keyAllowed then none
  else do
    let dropped ← (scan.roll column scan.tokens.length .blockMappingStart).dropCandidate?
    let passed ← (dropped.markKey.skip 1).passAfterKey?
    some (passed.push .key column)

theorem remaining_of_key? {scan next : Scan} {c : Char} {tail : List Char}
    (rest : scan.cursor.rest = c :: tail) (read : scan.key? = some next) :
    next.cursor.remaining < scan.cursor.remaining := by
  have := Cursor.remaining_skip_lt Nat.one_pos rest
  simp only [key?, Option.ite_none_left_eq_some, Option.bind_eq_bind, Option.bind_eq_some_iff,
    Option.some.injEq] at read
  obtain ⟨_, dropped, candidate, passed, after, rfl⟩ := read
  have := remaining_of_passAfterKey? after
  have := cursor_of_dropCandidate? candidate
  simp_all [markKey]
  omega

/-- Passes the colon of a value. In version 1.2 neither a word nor a hyphen may come after it and
tabs alone. -/
def passColon? (scan : Scan) : Option Scan :=
  let next := scan.skip 1
  if scan.isCurrent && next.cursor.starts '\t' then do
    let filler ← next.cursor.filler? true
    let passed := next.skip filler.length
    if !filler.spaces && passed.cursor.peek?.any isWord then none else some passed
  else some next

theorem remaining_of_passColon? {scan next : Scan} (passed : scan.passColon? = some next) :
    next.cursor.remaining ≤ (scan.cursor.skip 1).remaining := by
  simp only [passColon?] at passed
  split at passed
  · simp only [Option.bind_eq_bind, Option.bind_eq_some_iff, Option.ite_none_left_eq_some,
      Option.some.injEq] at passed
    obtain ⟨_, _, _, rfl⟩ := passed
    exact Cursor.remaining_skip_le _ _
  · simp only [Option.some.injEq] at passed
    subst passed
    exact Nat.le_refl _

/-- Whether a value starts a pair without braces in a flow sequence. -/
def startsPair (scan : Scan) : Bool := scan.isCurrent && !scan.pairs.isEmpty && !scan.mappingStarted

def enterPair (scan : Scan) : Scan :=
  if scan.startsPair then { scan with pairs := .inside :: scan.pairs.tail } else scan

@[simp]
theorem cursor_enterPair (scan : Scan) : scan.enterPair.cursor = scan.cursor := by
  unfold enterPair
  split <;> rfl

/-- Notes that the candidate has become a key. -/
def useCandidate (scan : Scan) : Scan :=
  { scan with candidate := { scan.candidate with possible := false }, keyAllowed := false }

/-- Reads the colon of a value. The candidate, if there is one, becomes its key. -/
def value? (scan : Scan) : Option Scan := do
  let start := scan.cursor
  let candidate := scan.candidate
  let isPair := scan.startsPair
  let passed ← scan.enterPair.passColon?
  if candidate.possible then
    if isPair && candidate.line < start.line then none
    else
      let keyed := passed.insertAt candidate.number .key candidate.column
      let paired :=
        if isPair then keyed.insertAt candidate.number .flowMappingStart start.column else keyed
      let rolled := (paired.roll candidate.column candidate.number .blockMappingStart).rollOneColumn
      some (rolled.useCandidate.push .value start.column)
  else
    let paired := if isPair then passed.push .flowMappingStart start.column else passed
    if !scan.inFlow && !scan.keyAllowed then none
    else
      let rolled := (paired.roll start.column paired.tokens.length .blockMappingStart).rollOneColumn
      some ((rolled.allowKey !scan.inFlow).push .value start.column)

theorem remaining_of_value? {scan next : Scan} {c : Char} {tail : List Char}
    (rest : scan.cursor.rest = c :: tail) (read : scan.value? = some next) :
    next.cursor.remaining < scan.cursor.remaining := by
  have := Cursor.remaining_skip_lt Nat.one_pos rest
  simp only [value?, Option.bind_eq_bind, Option.bind_eq_some_iff] at read
  obtain ⟨passed, colon, read⟩ := read
  have := remaining_of_passColon? colon
  have : next.cursor = passed.cursor := by
    split at read
    all_goals
      simp only [Option.ite_none_left_eq_some, Option.some.injEq] at read
      obtain ⟨_, rfl⟩ := read
      split <;> simp [useCandidate]
  simp_all
  omega

end MapBlocks.Yaml.Scan
