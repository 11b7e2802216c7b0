import MapBlocks.Yaml.Token.Indicator
import MapBlocks.Yaml.Token.Plain
import MapBlocks.Yaml.Token.Quoted
import MapBlocks.Yaml.Token.Tag

/-!
# From a text to its tokens

`tokens?` divides a whole text into tokens, or finds that its layout is faulty.
-/

namespace MapBlocks.Yaml

namespace Scan

/-- Whether the colon that is next is that of a value: a gap follows it, or inside flow
collections something else that lets the key end. -/
def atValueMark (scan : Scan) : Bool :=
  let next? := scan.cursor.second?
  scan.cursor.version.isGap next?
    || (scan.inFlow
      && (!scan.isCurrent || next?.any isFlow || scan.cursor.index = scan.adjacentValue))

/-- Whether the colon that is next stands directly before an opening bracket, which version 1.2
allows only after a quoted key. -/
def colonBeforeBracket (scan : Scan) : Bool :=
  scan.isCurrent && scan.cursor.index ≠ scan.adjacentValue
    && scan.cursor.second?.any fun c => c = '[' || c = '\x7b'

def atKeyMark (scan : Scan) : Bool :=
  scan.cursor.version.isGap scan.cursor.second? || (!scan.isCurrent && scan.inFlow)

/-- Whether a plain scalar may start with the given indicator. -/
def mayStartPlain (scan : Scan) (c : Char) : Bool :=
  if scan.isCurrent then c ≠ '%' && c ≠ '@' && c ≠ '\x60'
  else if c = '-' then true
  else if c = '?' || c = ':' then !scan.inFlow
  else !"#|>%@\x60\t".toList.contains c

/-- Reads one token, of which the first character is given. -/
def token? (scan : Scan) (c : Char) : Option Scan :=
  let inBlock := !scan.inFlow
  if c = '[' then scan.openFlow? .flowSequenceStart
  else if c = '\x7b' then scan.openFlow? .flowMappingStart
  else if c = ']' then scan.closeFlow? .flowSequenceEnd
  else if c = '\x7d' then scan.closeFlow? .flowMappingEnd
  else if c = ',' then scan.flowComma?
  else if c = '-' && scan.atEntryMark then scan.blockHyphen?
  else if c = '?' && scan.atKeyMark then scan.key?
  else if c = ':' && scan.atValueMark then if scan.colonBeforeBracket then none else scan.value?
  else if c = '*' then scan.anchor? true
  else if c = '&' then scan.anchor? false
  else if c = '!' then scan.tag?
  else if c = '|' && inBlock then scan.block? false
  else if c = '>' && inBlock then scan.block? true
  else if c = '\'' then scan.quoted? false
  else if c = '"' then scan.quoted? true
  else if scan.mayStartPlain c then scan.plain?
  else none

/-- Reads one token or mark at a place where there is one. In version 1.2 what a collection holds
must not be indented less than the collection. -/
def next? (scan : Scan) (c : Char) : Option Scan :=
  if scan.cursor.column = 0 && c = '%' then scan.directive?
  else if scan.cursor.column = 0 && scan.cursor.atTriple '-' then scan.documentMark? .documentStart
  else if scan.cursor.column = 0 && scan.cursor.atTriple '.' then scan.documentMark? .documentEnd
  else if scan.isCurrent && scan.outdented then none
  else scan.token? c

/-- A token takes at least one character. -/
theorem remaining_of_token? {scan next : Scan} {c : Char} {tail : List Char}
    (rest : scan.cursor.rest = c :: tail) (read : scan.token? c = some next) :
    next.cursor.remaining < scan.cursor.remaining := by
  revert read
  fun_cases token? scan c <;> intro read
  · exact remaining_of_openFlow? rest read
  · exact remaining_of_openFlow? rest read
  · exact remaining_of_closeFlow? rest read
  · exact remaining_of_closeFlow? rest read
  · exact remaining_of_flowComma? rest read
  · exact remaining_of_blockHyphen? rest read
  · exact remaining_of_key? rest read
  · simp at read
  · exact remaining_of_value? rest read
  · exact remaining_of_anchor? rest read
  · exact remaining_of_anchor? rest read
  · exact remaining_of_tag? read
  · exact remaining_of_block? rest read
  · exact remaining_of_block? rest read
  · exact remaining_of_quoted? rest read
  · exact remaining_of_quoted? rest read
  · exact remaining_of_plain? read
  · simp at read

/-- So does a mark of a document. -/
theorem remaining_of_next? {scan next : Scan} {c : Char} {tail : List Char}
    (rest : scan.cursor.rest = c :: tail) (read : scan.next? c = some next) :
    next.cursor.remaining < scan.cursor.remaining := by
  unfold next? at read
  split at read
  · exact remaining_of_directive? rest read
  · split at read
    · exact remaining_of_documentMark? rest read
    · split at read
      · exact remaining_of_documentMark? rest read
      · simp only [Option.ite_none_left_eq_some] at read
        exact remaining_of_token? rest read.2

/-- Ends the block collections that are still open at the end of the text. A required key that is
still without its colon is a fault. -/
def finish? (scan : Scan) : Option (List Token) :=
  if (scan.candidate :: scan.outerCandidates).any fun c => c.possible && c.required then none
  else some ((scan.unroll (-1)).tokens.reverse.map Placed.token)

/-- The place of the next token, with the block collections ended that it does not belong to. -/
def settle? (scan : Scan) : Option Scan := do
  let placed ← scan.toToken?
  let fresh ← placed.refreshCandidates?
  some (fresh.unroll fresh.cursor.column)

theorem remaining_of_settle? {scan next : Scan} (settled : scan.settle? = some next) :
    next.cursor.remaining ≤ scan.cursor.remaining := by
  simp only [settle?, Option.bind_eq_bind, Option.bind_eq_some_iff, Option.some.injEq] at settled
  obtain ⟨placed, moved, fresh, refreshed, rfl⟩ := settled
  have := remaining_of_toToken? moved
  rw [cursor_unroll, cursor_of_refreshCandidates? refreshed]
  exact this

/-- Reads all the tokens from here on. -/
def run? (scan : Scan) : Option (List Token) :=
  match _ : scan.settle? with
  | none => none
  | some here => match _ : here.cursor.rest with
    | [] => here.finish?
    | c :: _ => match _ : here.next? c with
      | none => none
      | some next => run? next
termination_by scan.cursor.remaining
decreasing_by
  exact Nat.lt_of_lt_of_le (remaining_of_next? (by assumption) (by assumption))
    (remaining_of_settle? (by assumption))

end Scan

def tokens? (version : Version) (text : String) : Option (List Token) := do
  let body ← version.prepare? text.toList
  (Scan.start version body).run?

end MapBlocks.Yaml
