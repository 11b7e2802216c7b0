import MapBlocks.Decimal.Numeral
import MapBlocks.Yaml.Token.Block

/-!
# Tags, anchors and directives

A tag is a handle and a suffix; directives give handles their meaning. An anchor names a node and
an alias repeats it.
-/

namespace MapBlocks.Yaml

/-- The characters of a tag's address in version 1.2. -/
def isUri (c : Char) : Bool := isAlphanumeric c || "-#;/?:@&=+$,_.!~*'()[]%".toList.contains c

/-- The characters of a tag's address in version 1.1, where the comma and square brackets are set
apart. -/
def isPlainUri (c : Char) : Bool := isAlphanumeric c || "-_;/?:@&=+$.!~*'()%".toList.contains c

/-- Whether a character may stand in a tag between angle brackets or in a directive. -/
def Version.inAddress (version : Version) (c : Char) : Bool :=
  match version with
  | .v12 => isUri c
  | .v11 => isPlainUri c || c = ',' || c = '[' || c = ']'

/-- Whether a character may stand in the suffix of a tag. -/
def Version.inSuffix (version : Version) (c : Char) : Bool :=
  match version with
  | .v12 => isUri c && !isFlow c && c ≠ '!'
  | .v11 => isPlainUri c

/-- The octet that a percent sign and two digits write. -/
def octet? : List Char → Option Nat
  | '%' :: a :: b :: _ => Decimal.natural? 16 [a, b]
  | _ => none

/-- How many octets a character has, from the first of them. -/
def octetCount? (octet : Nat) : Option Nat :=
  if octet < 0x80 then some 1
  else if octet < 0xC0 then none
  else if octet < 0xE0 then some 2
  else if octet < 0xF0 then some 3
  else if octet < 0xF8 then some 4
  else none

/-- The octets of an escaped character: the first is given by the text, the others must be
continuations. -/
def octets? : Nat → List Char → Option (List Nat)
  | 0, _ => some []
  | count + 1, text => do
      let octet ← octet? text
      if 0x80 ≤ octet ∧ octet < 0xC0 then
        let others ← octets? count (text.drop 3)
        some (octet :: others)
      else none

/-- The character of some octets. Version 1.2 takes the octets as the digits of its code; version
1.1 decodes them, and a wrong sequence stands for the replacement character. -/
def Version.ofOctets? (version : Version) (octets : List Nat) : Option Char :=
  match version with
  | .v12 =>
      let code := octets.foldl (fun code octet => code * 256 + octet) 0
      if code.isValidChar then some (Char.ofNat code) else none
  | .v11 =>
      let code := match octets with
        | [a] => a
        | first :: others =>
            others.foldl (fun code octet => code * 64 + octet % 64)
              (first % Nat.pow 2 (6 - others.length))
        | [] => 0
      some (if code.isValidChar then Char.ofNat code else '\ufffd')

/-- Reads an escaped character of a tag; gives it and the length of its escape. -/
def uriEscape? (version : Version) (text : List Char) : Option (Char × Nat) := do
  let first ← octet? text
  let count ← octetCount? first
  let others ← octets? (count - 1) (text.drop 3)
  let character ← version.ofOctets? (first :: others)
  some (character, 3 * count)

/-- Reads the characters of a tag that pass a test, with their escapes. -/
def scanUri? (test : Char → Bool) (cursor : Cursor) : Option (List Char × Cursor) :=
  match _ : cursor.rest with
  | [] => some ([], cursor)
  | c :: tail =>
      if !test c then some ([], cursor)
      else if c = '%' then
        match uriEscape? cursor.version (c :: tail) with
        | none => none
        | some (character, length) =>
            (scanUri? test (cursor.skip (max 1 length))).map fun (text, next) =>
              (character :: text, next)
      else (scanUri? test (cursor.skip 1)).map fun (text, next) => (c :: text, next)
termination_by cursor.remaining
decreasing_by all_goals exact Cursor.remaining_skip_lt (by omega) (by assumption)

theorem remaining_of_scanUri? {test : Char → Bool} {cursor next : Cursor} {text : List Char}
    (read : scanUri? test cursor = some (text, next)) : next.remaining ≤ cursor.remaining := by
  fun_induction scanUri? test cursor generalizing text with
  | case1 => simp_all
  | case2 => simp_all
  | case3 => simp at read
  | case4 _ _ _ _ _ _ _ ih =>
      simp only [Option.map_eq_some_iff, Prod.mk.injEq, Prod.exists] at read
      obtain ⟨_, _, inner, _, rfl⟩ := read
      have := ih inner
      rw [Cursor.remaining_skip] at this
      omega
  | case5 _ _ _ _ _ _ ih =>
      simp only [Option.map_eq_some_iff, Prod.mk.injEq, Prod.exists] at read
      obtain ⟨_, _, inner, _, rfl⟩ := read
      have := ih inner
      rw [Cursor.remaining_skip] at this
      omega

/-- Reads a handle: an exclamation mark, the characters of a name and, if it is there, another
exclamation mark. -/
def scanHandle? (cursor : Cursor) : Option (List Char × Cursor) :=
  if !cursor.starts '!' then none
  else
    let opened := cursor.skip 1
    let name := opened.upTo isWord
    let next := opened.skip name.length
    if next.starts '!' then some ('!' :: (name ++ ['!']), next.skip 1) else some ('!' :: name, next)

theorem remaining_of_scanHandle? {cursor next : Cursor} {handle : List Char}
    (read : scanHandle? cursor = some (handle, next)) : next.remaining < cursor.remaining := by
  unfold scanHandle? at read
  split at read
  · simp at read
  · rename_i opening
    obtain ⟨tail, rest⟩ := Cursor.rest_of_starts (by simpa using opening)
    have := Cursor.remaining_skip_lt Nat.one_pos rest
    dsimp only at read
    split at read
    all_goals
      simp only [Option.some.injEq, Prod.mk.injEq] at read
      obtain ⟨_, rfl⟩ := read
      simp only [Cursor.remaining_skip] at *
      omega

/-- Whether a handle ends in a second exclamation mark. -/
def isFullHandle (handle : List Char) : Bool := 2 ≤ handle.length && handle.getLast? == some '!'

/-- Reads a tag in angle brackets, of which the opening one is passed. Version 1.1 does not take
an empty one. -/
def scanVerbatim? (cursor : Cursor) : Option (List Char × Cursor) := do
  let (text, next) ← scanUri? cursor.version.inAddress cursor
  if !next.starts '>' || (cursor.version = .v11 && text.isEmpty) then none
  else some (text, next.skip 1)

theorem remaining_of_scanVerbatim? {cursor next : Cursor} {text : List Char}
    (read : scanVerbatim? cursor = some (text, next)) : next.remaining ≤ cursor.remaining := by
  simp only [scanVerbatim?, Option.bind_eq_bind, Option.bind_eq_some_iff, Prod.exists,
    Option.ite_none_left_eq_some, Option.some.injEq, Prod.mk.injEq] at read
  obtain ⟨_, last, scanned, _, _, rfl⟩ := read
  have := remaining_of_scanUri? scanned
  rw [Cursor.remaining_skip]
  omega

/-- Reads a tag with a handle. Without a second exclamation mark the name belongs to the suffix,
and an exclamation mark alone is a suffix of its own. -/
def scanShorthand? (cursor : Cursor) : Option (Token × Cursor) := do
  let (handle, next) ← scanHandle? cursor
  let (text, last) ← scanUri? cursor.version.inSuffix next
  if isFullHandle handle then if text.isEmpty then none else some (.tag handle text, last)
  else
    let suffix := handle.drop 1 ++ text
    some (if suffix.isEmpty then .tag [] ['!'] else .tag ['!'] suffix, last)

theorem remaining_of_scanShorthand? {cursor next : Cursor} {token : Token}
    (read : scanShorthand? cursor = some (token, next)) : next.remaining < cursor.remaining := by
  simp only [scanShorthand?, Option.bind_eq_bind, Option.bind_eq_some_iff, Prod.exists] at read
  obtain ⟨_, _, handle, _, last, scanned, read⟩ := read
  have := remaining_of_scanHandle? handle
  have := remaining_of_scanUri? scanned
  have : next = last := by
    split at read
    · split at read <;> simp_all
    · simp_all
  subst this
  omega

def scanTag? (cursor : Cursor) : Option (Token × Cursor) :=
  if cursor.second? = some '<' then
    (scanVerbatim? (cursor.skip 2)).map fun (text, next) => (.tag [] text, next)
  else scanShorthand? cursor

theorem remaining_of_scanTag? {cursor next : Cursor} {token : Token}
    (read : scanTag? cursor = some (token, next)) : next.remaining < cursor.remaining := by
  unfold scanTag? at read
  split at read
  · rename_i second
    simp only [Option.map_eq_some_iff, Prod.mk.injEq, Prod.exists] at read
    obtain ⟨_, _, scanned, _, rfl⟩ := read
    have := remaining_of_scanVerbatim? scanned
    have : cursor.remaining ≠ 0 := by
      simp only [Cursor.second?] at second
      obtain ⟨inside, _⟩ := List.getElem?_eq_some_iff.1 second
      unfold Cursor.remaining
      omega
    rw [Cursor.remaining_skip] at *
    omega
  · exact remaining_of_scanShorthand? read

/-- The characters of the name of an anchor. -/
def Version.inAnchor (version : Version) (c : Char) : Bool :=
  match version with
  | .v12 => !isBlank c && !version.isBreak c && !isFlow c && c ≠ '\ufeff'
  | .v11 => isWord c

/-- Whether the name of an anchor may end before the given character. -/
def Version.endsAnchor (version : Version) (next? : Option Char) : Bool :=
  version = .v12 || version.isGap next? || next?.any "?:,]\x7d%@\x60".toList.contains

/-- Reads the name of an anchor or alias after its mark. -/
def scanAnchor? (cursor : Cursor) : Option (List Char × Cursor) :=
  let name := cursor.upTo cursor.version.inAnchor
  let next := cursor.skip name.length
  if name.isEmpty || !cursor.version.endsAnchor next.peek? then none else some (name, next)

theorem remaining_of_scanAnchor? {cursor next : Cursor} {name : List Char}
    (read : scanAnchor? cursor = some (name, next)) : next.remaining ≤ cursor.remaining := by
  simp only [scanAnchor?, Option.ite_none_left_eq_some, Option.some.injEq, Prod.mk.injEq] at read
  obtain ⟨_, _, rfl⟩ := read
  exact Cursor.remaining_skip_le _ _

/-- Reads a number of a version, of at most nine digits. -/
def scanVersionNumber? (cursor : Cursor) : Option (Nat × Cursor) :=
  let digits := cursor.upTo Char.isDigit
  if digits.isEmpty || 9 < digits.length then none
  else some (Decimal.valueOf 10 digits, cursor.skip digits.length)

theorem remaining_of_scanVersionNumber? {cursor next : Cursor} {number : Nat}
    (read : scanVersionNumber? cursor = some (number, next)) :
    next.remaining ≤ cursor.remaining := by
  simp only [scanVersionNumber?, Option.ite_none_left_eq_some, Option.some.injEq,
    Prod.mk.injEq] at read
  obtain ⟨_, _, rfl⟩ := read
  exact Cursor.remaining_skip_le _ _

/-- Reads the version that a directive names. -/
def scanVersion? (cursor : Cursor) : Option (Token × Cursor) := do
  let (major, next) ← scanVersionNumber? (cursor.skipWhile isBlank)
  if !next.starts '.' then none
  else
    let (minor, last) ← scanVersionNumber? (next.skip 1)
    some (.versionDirective major minor, last)

theorem remaining_of_scanVersion? {cursor next : Cursor} {token : Token}
    (read : scanVersion? cursor = some (token, next)) : next.remaining ≤ cursor.remaining := by
  simp only [scanVersion?, Option.bind_eq_bind, Option.bind_eq_some_iff, Prod.exists,
    Option.ite_none_left_eq_some, Option.some.injEq, Prod.mk.injEq] at read
  obtain ⟨_, _, major, _, _, _, minor, _, rfl⟩ := read
  have := remaining_of_scanVersionNumber? major
  have := remaining_of_scanVersionNumber? minor
  have := cursor.remaining_skipWhile_le isBlank
  rw [Cursor.remaining_skip] at *
  omega

/-- The characters with which the expansion of a handle may start. -/
def Version.startsExpansion (version : Version) (c : Char) : Bool :=
  match version with
  | .v12 => c = '!' || version.inSuffix c
  | .v11 => version.inAddress c

/-- Reads what a handle stands for. -/
def scanExpansion? (cursor : Cursor) : Option (List Char × Cursor) :=
  if cursor.peek?.any cursor.version.startsExpansion then scanUri? cursor.version.inAddress cursor
  else none

theorem remaining_of_scanExpansion? {cursor next : Cursor} {text : List Char}
    (read : scanExpansion? cursor = some (text, next)) : next.remaining ≤ cursor.remaining := by
  unfold scanExpansion? at read
  split at read
  · exact remaining_of_scanUri? read
  · simp at read

/-- Reads the handle that a directive defines and what it stands for. -/
def scanTagDirective? (cursor : Cursor) : Option (Token × Cursor) := do
  let (handle, next) ← scanHandle? (cursor.skipWhile isBlank)
  if !isFullHandle handle && handle ≠ ['!'] then none
  else if cursor.version = .v11 && !next.atBlank then none
  else
    let (expansion, last) ← scanExpansion? (next.skipWhile isBlank)
    if last.atGap then some (.tagDirective handle expansion, last) else none

theorem remaining_of_scanTagDirective? {cursor next : Cursor} {token : Token}
    (read : scanTagDirective? cursor = some (token, next)) : next.remaining ≤ cursor.remaining := by
  simp only [scanTagDirective?, Option.bind_eq_bind, Option.bind_eq_some_iff, Prod.exists,
    Option.ite_none_left_eq_some, Option.ite_none_right_eq_some, Option.some.injEq,
    Prod.mk.injEq] at read
  obtain ⟨_, afterHandle, handle, _, _, _, _, expansion, _, _, rfl⟩ := read
  have := remaining_of_scanHandle? handle
  have := remaining_of_scanExpansion? expansion
  have := cursor.remaining_skipWhile_le isBlank
  have := afterHandle.remaining_skipWhile_le isBlank
  omega

/-- Reads what comes after the name of a directive. Version 1.2 passes a directive with an unknown
name, which then defines an empty handle; version 1.1 refuses it. -/
def scanParameters? (name : List Char) (cursor : Cursor) : Option (Token × Cursor) :=
  if name = "YAML".toList then scanVersion? cursor
  else if name = "TAG".toList then scanTagDirective? cursor
  else match cursor.version with
    | .v12 => some (.tagDirective [] [], cursor.skipLine)
    | .v11 => none

theorem remaining_of_scanParameters? {name : List Char} {cursor next : Cursor} {token : Token}
    (read : scanParameters? name cursor = some (token, next)) :
    next.remaining ≤ cursor.remaining := by
  unfold scanParameters? at read
  split at read
  · exact remaining_of_scanVersion? read
  · split at read
    · exact remaining_of_scanTagDirective? read
    · split at read
      · simp only [Option.some.injEq, Prod.mk.injEq] at read
        obtain ⟨_, rfl⟩ := read
        exact Cursor.remaining_skipWhile_le _ _
      · simp at read

def scanDirective? (cursor : Cursor) : Option (Token × Cursor) := do
  let opened := cursor.skip 1
  let name := opened.upTo isWord
  let next := opened.skip name.length
  if name.isEmpty || !next.atGap then none
  else
    let (token, last) ← scanParameters? name next
    let line ← last.passHeaderLine?
    some (token, line.skipBreak)

theorem remaining_of_scanDirective? {cursor next : Cursor} {token : Token}
    (read : scanDirective? cursor = some (token, next)) :
    next.remaining ≤ (cursor.skip 1).remaining := by
  simp only [scanDirective?, Option.bind_eq_bind, Option.bind_eq_some_iff, Prod.exists,
    Option.ite_none_left_eq_some, Option.some.injEq, Prod.mk.injEq] at read
  obtain ⟨_, _, _, parameters, line, passed, _, rfl⟩ := read
  have := remaining_of_scanParameters? parameters
  have := Cursor.remaining_of_passHeaderLine? passed
  have := line.remaining_skipBreak_le
  simp only [Cursor.remaining_skip] at *
  omega

namespace Scan

/-- Reads an anchor or, if `alias` is set, an alias. -/
def anchor? (scan : Scan) (isAlias : Bool) : Option Scan := do
  let start := scan.cursor
  let (name, next) ← scanAnchor? (start.skip 1)
  some (((scan.saveCandidate.allowKey false).moveTo next).push
    (if isAlias then .alias name else .anchor name) start.column)

theorem remaining_of_anchor? {scan next : Scan} {isAlias : Bool} {c : Char} {tail : List Char}
    (rest : scan.cursor.rest = c :: tail) (read : scan.anchor? isAlias = some next) :
    next.cursor.remaining < scan.cursor.remaining := by
  have := Cursor.remaining_skip_lt Nat.one_pos rest
  simp only [anchor?, Option.bind_eq_bind, Option.bind_eq_some_iff, Option.some.injEq,
    Prod.exists] at read
  obtain ⟨_, _, scanned, rfl⟩ := read
  have := remaining_of_scanAnchor? scanned
  simp only [cursor_push, cursor_moveTo]
  omega

/-- Whether a tag may end here: before a gap, or inside flow collections before a comma. Version
1.2 takes any other flow indicator there too. -/
def mayEndTag (scan : Scan) : Bool :=
  scan.cursor.atGap
    || (scan.inFlow
      && (scan.cursor.starts ',' || (scan.isCurrent && scan.cursor.peek?.any isFlow)))

def tag? (scan : Scan) : Option Scan := do
  let start := scan.cursor
  let (token, next) ← scanTag? start
  let last := (scan.saveCandidate.allowKey false).moveTo next
  if last.mayEndTag then some (last.push token start.column) else none

theorem remaining_of_tag? {scan next : Scan} (read : scan.tag? = some next) :
    next.cursor.remaining < scan.cursor.remaining := by
  simp only [tag?, Option.bind_eq_bind, Option.bind_eq_some_iff, Option.ite_none_right_eq_some,
    Option.some.injEq, Prod.exists] at read
  obtain ⟨_, _, scanned, _, rfl⟩ := read
  exact remaining_of_scanTag? scanned

def directive? (scan : Scan) : Option Scan := do
  let ended ← (scan.unroll (-1)).dropCandidate?
  let (token, next) ← scanDirective? scan.cursor
  some (((ended.allowKey false).moveTo next).push token scan.cursor.column)

theorem remaining_of_directive? {scan next : Scan} {c : Char} {tail : List Char}
    (rest : scan.cursor.rest = c :: tail) (read : scan.directive? = some next) :
    next.cursor.remaining < scan.cursor.remaining := by
  have := Cursor.remaining_skip_lt Nat.one_pos rest
  simp only [directive?, Option.bind_eq_bind, Option.bind_eq_some_iff, Option.some.injEq,
    Prod.exists] at read
  obtain ⟨_, _, _, _, scanned, rfl⟩ := read
  have := remaining_of_scanDirective? scanned
  simp only [cursor_push, cursor_moveTo]
  omega

/-- The place after the mark of a document's start or end. In version 1.2 nothing but a comment may
follow the mark of an end. -/
def passDocumentMark? (scan : Scan) (token : Token) : Option Cursor :=
  let next := scan.cursor.skip 3
  if scan.isCurrent && token = .documentEnd then next.passLine? else some next

/-- Reads the mark of a document's start or end. -/
def documentMark? (scan : Scan) (token : Token) : Option Scan := do
  let ended ← (scan.unroll (-1)).dropCandidate?
  let last ← scan.passDocumentMark? token
  some (((ended.allowKey false).moveTo last).push token scan.cursor.column)

theorem remaining_of_documentMark? {scan next : Scan} {token : Token} {c : Char} {tail : List Char}
    (rest : scan.cursor.rest = c :: tail) (read : scan.documentMark? token = some next) :
    next.cursor.remaining < scan.cursor.remaining := by
  have := Cursor.remaining_skip_lt (show 0 < 3 by omega) rest
  simp only [documentMark?, passDocumentMark?, Option.bind_eq_bind, Option.bind_eq_some_iff,
    Option.some.injEq] at read
  obtain ⟨_, _, last, passed, rfl⟩ := read
  have : last.remaining ≤ (scan.cursor.skip 3).remaining := by
    split at passed
    · exact Cursor.remaining_of_passLine? passed
    · simp_all
  simp only [cursor_push, cursor_moveTo]
  omega

end Scan

end MapBlocks.Yaml
