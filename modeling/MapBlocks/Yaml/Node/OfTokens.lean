import MapBlocks.Yaml.Node
import MapBlocks.Yaml.Token.OfText

/-!
# From tokens to nodes

Each kind of collection has its own rules for what may be left out: the entry of a sequence, the
key or the value of a pair. What is left out is an empty scalar.
-/

namespace MapBlocks.Yaml

/-- What the tags of a document mean. -/
structure TagTable where
  version : Version
  /-- What directives say about handles, the first directive first. -/
  handles : List (List Char × List Char)

namespace TagTable

/-- What a directive says about a handle. -/
def expansion? (table : TagTable) (handle : List Char) : Option (List Char) :=
  (table.handles.find? fun (name, _) => name == handle).map Prod.snd

/-- What a handle stands for without a directive. A handle with a name must be defined by one. -/
def default? (version : Version) (handle : List Char) : Option (List Char) :=
  if handle = ['!', '!'] then some coreBase.toList
  else if isFullHandle handle || (version = .v11 && handle ≠ ['!'] && !handle.isEmpty) then none
  else some handle

/-- The tag that a handle and a suffix make. In version 1.1 a tag without a handle is complete. -/
def resolve? (table : TagTable) (handle suffix : List Char) : Option Tag :=
  let base? :=
    if table.version = .v11 && handle.isEmpty then some []
    else table.expansion? handle <|> default? table.version handle
  base?.map fun base => ⟨String.ofList base, String.ofList suffix⟩

end TagTable

/-- The scalar that stands for what is left out. -/
def emptyScalar (version : Version) : Node :=
  .scalar .none .plain (match version with | .v12 => "~" | .v11 => "")

/-- Whether the next token is one of the given ones. -/
def nextIs (tokens : List Token) (expected : List Token) : Bool :=
  tokens.head?.any expected.contains

/-- The properties with an anchor and a tag given by tokens. -/
def properties? (table : TagTable) (anchor? : Option (List Char))
    (tag? : Option (List Char × List Char)) : Option Properties :=
  match tag? with
  | none => some ⟨anchor?.map String.ofList, none⟩
  | some (handle, suffix) =>
      (table.resolve? handle suffix).map fun tag => ⟨anchor?.map String.ofList, some tag⟩

/-- What is left of some tokens after a part of them has been read. -/
abbrev Rest (tokens : List Token) := { rest : List Token // rest.length ≤ tokens.length }

def Rest.all (tokens : List Token) : Rest tokens := ⟨tokens, Nat.le_refl _⟩

def Rest.tail (token : Token) (rest : List Token) : Rest (token :: rest) := ⟨rest, Nat.le_succ _⟩

/-- What is left of tokens, of which some had been passed before. -/
def Rest.within {tokens rest : List Token} (left : Rest rest)
    (shorter : rest.length ≤ tokens.length) : Rest tokens := ⟨left.1, Nat.le_trans left.2 shorter⟩

/-- Something read from the start of some tokens, and what is left of them. -/
abbrev Reading (α : Type) (tokens : List Token) := Option (α × Rest tokens)

/-- Something else made of what has been read, where some tokens had been passed before. -/
def Reading.convert {α β : Type} {tokens rest : List Token} (reading : Reading α rest) (f : α → β)
    (shorter : rest.length ≤ tokens.length) : Reading β tokens :=
  Option.map (fun (value, left) => (f value, left.within shorter)) reading

/-- What has been read, with what is left as plain tokens. -/
def Reading.toPair {α : Type} {tokens : List Token} (reading : Reading α tokens) :
    Option (α × List Token) :=
  Option.map (fun (value, left) => (value, left.1)) reading

/-- What has been read, where some tokens had been passed before. -/
def Reading.after {α : Type} {tokens rest : List Token} (reading : Reading α rest)
    (shorter : rest.length ≤ tokens.length) : Reading α tokens := reading.convert id shorter

theorem Reading.length_of_toPair {α : Type} {tokens rest : List Token} {reading : Reading α tokens}
    {value : α} (read : reading.toPair = some (value, rest)) : rest.length ≤ tokens.length := by
  obtain ⟨⟨_, left⟩, _, same⟩ := Option.map_eq_some_iff.1 read
  simp only [Prod.mk.injEq] at same
  exact same.2 ▸ left.2

/-- In a lexicographic order the first part need not decrease if the second does. -/
theorem lex_of_le {m n k l : Nat} (first : m ≤ n) (second : k < l) :
    Prod.Lex (· < ·) (· < ·) (m, k) (n, l) := by
  rcases Nat.lt_or_eq_of_le first with less | rfl
  · exact .left _ _ less
  · exact .right _ second

namespace Node

/-- Tokens before which the entry of a flow sequence ends. -/
def sequenceStops : List Token := [.flowEntry, .flowSequenceEnd]

/-- Tokens before which the entry of a flow mapping ends. -/
def mappingStops : List Token := [.flowEntry, .flowMappingEnd]

/-- Tokens before which the entry of a block sequence ends. -/
def entryStops : List Token := [.blockEntry, .blockEnd]

/-- Tokens before which the key or value of a block mapping ends. -/
def pairStops : List Token := [.key, .value, .blockEnd]

mutual

/-- Reads a node. Block collections are allowed if `block` is set, and a sequence without
indentation of its own if `bare` is set. -/
def ofTokens? (table : TagTable) (block bare : Bool) (tokens : List Token) : Reading Node tokens :=
  match tokens with
  | .alias name :: rest => some (.alias (String.ofList name), .tail _ rest)
  | .anchor anchor :: .tag handle suffix :: rest =>
      (properties? table anchor (handle, suffix)).bind fun p =>
        (content? table block bare p rest).after (by simp +arith)
  | .tag handle suffix :: .anchor anchor :: rest =>
      (properties? table anchor (handle, suffix)).bind fun p =>
        (content? table block bare p rest).after (by simp +arith)
  | .anchor anchor :: rest =>
      (properties? table anchor none).bind fun p =>
        (content? table block bare p rest).after (by simp)
  | .tag handle suffix :: rest =>
      (properties? table none (handle, suffix)).bind fun p =>
        (content? table block bare p rest).after (by simp)
  | other => content? table block bare .none other
termination_by (tokens.length, 2)

/-- Reads the content of a node, which may be missing after properties. -/
def content? (table : TagTable) (block bare : Bool) (properties : Properties)
    (tokens : List Token) : Reading Node tokens :=
  match tokens with
  | .scalar style text :: rest =>
      some (.scalar properties style (String.ofList text), .tail _ rest)
  | .flowSequenceStart :: rest =>
      (flowItems? table true rest).convert (.sequence properties) (by simp)
  | .flowMappingStart :: rest =>
      (flowEntries? table true rest).convert (.mapping properties) (by simp)
  | other =>
      if bare && nextIs other [.blockEntry] then
        (bareItems? table other).convert (.sequence properties) (Nat.le_refl _)
      else match other, block with
        | .blockSequenceStart :: rest, true =>
            (blockItems? table rest).convert (.sequence properties) (by simp)
        | .blockMappingStart :: rest, true =>
            (blockEntries? table rest).convert (.mapping properties) (by simp)
        | other, _ =>
            if properties.isEmpty then none else some (.scalar properties .plain "", .all other)
termination_by (tokens.length, 1)

/-- Reads a node, unless it is left out, as one of the given tokens shows. -/
def nodeUnless? (table : TagTable) (stops : List Token) (block bare : Bool) (tokens : List Token) :
    Reading Node tokens :=
  if nextIs tokens stops then some (emptyScalar table.version, .all tokens)
  else ofTokens? table block bare tokens
termination_by (tokens.length, 3)

/-- Reads the entries of a sequence without indentation of its own. -/
def bareItems? (table : TagTable) (tokens : List Token) : Reading (List Node) tokens :=
  match tokens with
  | .blockEntry :: rest =>
      match nodeUnless? table (.blockEntry :: pairStops) true false rest with
      | none => none
      | some (item, after) =>
          (bareItems? table after.1).convert (item :: ·) (Nat.le_succ_of_le after.2)
  | other => some ([], .all other)
termination_by (tokens.length, 0)

/-- Reads the entries of an indented sequence. -/
def blockItems? (table : TagTable) (tokens : List Token) : Reading (List Node) tokens :=
  match tokens with
  | .blockEnd :: rest => some ([], .tail _ rest)
  | .blockEntry :: rest =>
      match nodeUnless? table entryStops true false rest with
      | none => none
      | some (item, after) =>
          (blockItems? table after.1).convert (item :: ·) (Nat.le_succ_of_le after.2)
  | _ => none
termination_by (tokens.length, 0)

/-- Reads the value of a block mapping's pair, if there is one. -/
def blockValue? (table : TagTable) (tokens : List Token) : Reading Node tokens :=
  match tokens with
  | .value :: rest => (nodeUnless? table pairStops true true rest).after (by simp)
  | other => some (emptyScalar table.version, .all other)
termination_by (tokens.length, 0)

/-- Reads the pairs of a block mapping. In version 1.2 a pair may have no key. -/
def blockEntries? (table : TagTable) (tokens : List Token) : Reading (List (Node × Node)) tokens :=
  match tokens with
  | .blockEnd :: rest => some ([], .tail _ rest)
  | .key :: rest =>
      match nodeUnless? table pairStops true true rest with
      | none => none
      | some (key, after) => match blockValue? table after.1 with
        | none => none
        | some (value, last) =>
            (blockEntries? table last.1).convert ((key, value) :: ·)
              (Nat.le_succ_of_le (Nat.le_trans last.2 after.2))
  | .value :: rest =>
      if table.version = .v11 then none
      else match nodeUnless? table pairStops true true rest with
        | none => none
        | some (value, last) =>
            (blockEntries? table last.1).convert ((emptyScalar table.version, value) :: ·)
              (Nat.le_succ_of_le last.2)
  | _ => none
termination_by (tokens.length, 0)

/-- Reads the key of a pair in a flow sequence after its mark. A key that is left out takes the
token after the mark with it. -/
def flowKey? (table : TagTable) (tokens : List Token) : Reading Node tokens :=
  match tokens with
  | [] => none
  | token :: rest =>
      if nextIs (token :: rest) (.value :: sequenceStops) then
        some (emptyScalar table.version, .tail token rest)
      else ofTokens? table false false (token :: rest)
termination_by (tokens.length, 3)

/-- Reads the value of a flow collection's pair, if there is one. -/
def flowValue? (table : TagTable) (stops tokens : List Token) : Reading Node tokens :=
  match tokens with
  | .value :: rest => (nodeUnless? table stops false false rest).after (by simp)
  | other => some (emptyScalar table.version, .all other)
termination_by (tokens.length, 0)

/-- Reads one entry of a flow sequence, which may be a pair with a marked key. -/
def flowItem? (table : TagTable) (tokens : List Token) : Reading Node tokens :=
  match tokens with
  | .key :: rest =>
      match flowKey? table rest with
      | none => none
      | some (key, after) =>
          (flowValue? table sequenceStops after.1).convert
            (fun value => .mapping .none [(key, value)]) (Nat.le_succ_of_le after.2)
  | other => ofTokens? table false false other
termination_by (tokens.length, 3)

/-- Reads the entries of a flow sequence; all but the first come after a comma. -/
def flowItems? (table : TagTable) (first : Bool) (tokens : List Token) :
    Reading (List Node) tokens :=
  match tokens, first with
  | .flowSequenceEnd :: rest, _ => some ([], .tail _ rest)
  | .flowEntry :: .flowSequenceEnd :: rest, false => some ([], ⟨rest, by simp +arith⟩)
  | other, true =>
      match flowItem? table other with
      | none => none
      | some (item, after) => (flowItems? table false after.1).convert (item :: ·) after.2
  | .flowEntry :: rest, false =>
      match flowItem? table rest with
      | none => none
      | some (item, after) =>
          (flowItems? table false after.1).convert (item :: ·) (Nat.le_succ_of_le after.2)
  | _, false => none
termination_by (tokens.length, if first then 4 else 0)
decreasing_by
  · exact .right _ (by simp)
  · exact lex_of_le after.2 (by simp)
  · exact .left _ _ (by simp)
  · exact .left _ _ (Nat.lt_succ_of_le after.2)

/-- Reads one pair of a flow mapping. Without a mark it is a key alone; in version 1.2 it may also
be a value alone. -/
def flowPair? (table : TagTable) (tokens : List Token) : Reading (Node × Node) tokens :=
  match tokens with
  | .key :: rest =>
      match nodeUnless? table (.value :: mappingStops) false false rest with
      | none => none
      | some (key, after) =>
          (flowValue? table mappingStops after.1).convert ((key, ·)) (Nat.le_succ_of_le after.2)
  | .value :: rest =>
      if table.version = .v11 then none
      else
        (nodeUnless? table mappingStops false false rest).convert
          ((emptyScalar table.version, ·)) (by simp)
  | other =>
      (ofTokens? table false false other).convert ((·, emptyScalar table.version)) (Nat.le_refl _)
termination_by (tokens.length, 3)

/-- Reads the pairs of a flow mapping; all but the first come after a comma. -/
def flowEntries? (table : TagTable) (first : Bool) (tokens : List Token) :
    Reading (List (Node × Node)) tokens :=
  match tokens, first with
  | .flowMappingEnd :: rest, _ => some ([], .tail _ rest)
  | .flowEntry :: .flowMappingEnd :: rest, false => some ([], ⟨rest, by simp +arith⟩)
  | other, true =>
      match flowPair? table other with
      | none => none
      | some (entry, after) => (flowEntries? table false after.1).convert (entry :: ·) after.2
  | .flowEntry :: rest, false =>
      match flowPair? table rest with
      | none => none
      | some (entry, after) =>
          (flowEntries? table false after.1).convert (entry :: ·) (Nat.le_succ_of_le after.2)
  | _, false => none
termination_by (tokens.length, if first then 4 else 0)
decreasing_by
  · exact .right _ (by simp)
  · exact lex_of_le after.2 (by simp)
  · exact .left _ _ (by simp)
  · exact .left _ _ (Nat.lt_succ_of_le after.2)

end

end Node

def Token.isDirective : Token → Bool
  | .versionDirective _ _ => true
  | .tagDirective _ _ => true
  | _ => false

/-- Whether a token ends the content of a document. -/
def Token.endsDocument (token : Token) : Bool :=
  token.isDirective || token = .documentStart || token = .documentEnd

/-- Whether the directives of a document fit together. A version is given at most once; version
1.1 takes 1.1 and 1.2 only, and each handle at most once. -/
def validDirectives (version : Version) (directives : List Token) : Bool :=
  let versions := directives.filterMap fun
    | .versionDirective major minor => some (major, minor)
    | _ => none
  let handles := directives.filterMap fun
    | .tagDirective handle _ => some handle
    | _ => none
  versions.length ≤ 1
    && (version = .v12
      || (versions.all (fun v => v == (1, 1) || v == (1, 2))
        && handles.eraseDups.length = handles.length))

/-- What the directives of a document say about handles. In version 1.2 only the last directive
counts. -/
def handlesOf (version : Version) (directives : List Token) : List (List Char × List Char) :=
  let counted := match version with
    | .v12 => directives.drop (directives.length - 1)
    | .v11 => directives
  counted.filterMap fun
    | .tagDirective handle expansion => some (handle, expansion)
    | _ => none

/-- Reads a document that starts with a mark, after its directives. -/
def explicitDocument? (version : Version) (tokens : List Token) : Option (Node × List Token) :=
  let directives := tokens.takeWhile Token.isDirective
  if !validDirectives version directives then none
  else match tokens.dropWhile Token.isDirective with
    | .documentStart :: rest =>
        if rest.head?.all Token.endsDocument then some (emptyScalar version, rest)
        else
          (Node.ofTokens? ⟨version, handlesOf version directives⟩ true false rest).toPair
    | _ => none

/-- The mark of a document is passed with it. -/
theorem length_of_explicitDocument? {version : Version} {tokens rest : List Token} {node : Node}
    (read : explicitDocument? version tokens = some (node, rest)) :
    rest.length < tokens.length := by
  have start_le := (List.dropWhile_suffix Token.isDirective : _ <:+ tokens).length_le
  simp only [explicitDocument?, Option.ite_none_left_eq_some] at read
  obtain ⟨_, read⟩ := read
  split at read
  · rename_i start
    rw [start, List.length_cons] at start_le
    split at read
    · simp only [Option.some.injEq, Prod.mk.injEq] at read
      obtain ⟨_, rfl⟩ := read
      omega
    · have := Reading.length_of_toPair read
      omega
  · simp at read

/-- Reads a document. Only a document that `implicit` allows may start without a mark. -/
def document? (version : Version) (implicit : Bool) (tokens : List Token) :
    Option (Node × List Token) :=
  if implicit && !tokens.head?.any fun token => token.isDirective || token = .documentStart then
    (Node.ofTokens? ⟨version, []⟩ true false tokens).toPair
  else explicitDocument? version tokens

theorem length_of_document? {version : Version} {implicit : Bool} {tokens rest : List Token}
    {node : Node} (read : document? version implicit tokens = some (node, rest)) :
    rest.length ≤ tokens.length ∧ (implicit = false → rest.length < tokens.length) := by
  unfold document? at read
  split at read
  · rename_i allowed
    exact ⟨Reading.length_of_toPair read, by simp_all⟩
  · have := length_of_explicitDocument? read
    exact ⟨by omega, fun _ => this⟩

/-- Whether the mark of a document's end is next, and the tokens after it. -/
def takeEnd : List Token → Bool × List Token
  | .documentEnd :: rest => (true, rest)
  | rest => (false, rest)

/-- Whether a document may start without a mark after one that ended as given: in version 1.2
after an explicit end, which must come before the directives of a further document. -/
def mayFollow (version : Version) (ended : Bool) (tokens : List Token) : Bool :=
  ended || version = .v11 || !tokens.head?.any Token.isDirective

/-- The tokens from which a document is read. Marks of the ends of documents before it are passed,
though not at the start of a text of version 1.1. -/
def documentTokens (version : Version) (first : Bool) (tokens : List Token) : List Token :=
  if first && version = .v11 then tokens else tokens.dropWhile (· = .documentEnd)

theorem length_documentTokens_le (version : Version) (first : Bool) (tokens : List Token) :
    (documentTokens version first tokens).length ≤ tokens.length := by
  unfold documentTokens
  split
  · exact Nat.le_refl _
  · exact (List.dropWhile_suffix _).length_le

/-- Reads the documents of a stream. -/
def documentsFrom? (version : Version) (first implicit : Bool) (tokens : List Token) :
    Option (List Node) :=
  let start := documentTokens version first tokens
  if start.isEmpty then some []
  else match _ : document? version implicit start with
    | none => none
    | some (node, rest) => match _ : takeEnd rest with
      | (ended, after) =>
          if !mayFollow version ended after then none
          else (documentsFrom? version false (ended && version = .v12) after).map (node :: ·)
termination_by (tokens.length, implicit.toNat)
decreasing_by
  rename_i read taken _
  obtain ⟨start_le, start_lt⟩ := length_of_document? read
  have tokens_le : start.length ≤ tokens.length := length_documentTokens_le version first tokens
  unfold takeEnd at taken
  split at taken
  · simp only [Prod.mk.injEq, List.length_cons] at taken start_le
    obtain ⟨_, rfl⟩ := taken
    exact .left _ _ (by omega)
  · simp only [Prod.mk.injEq] at taken
    obtain ⟨rfl, rfl⟩ := taken
    cases implicit with
    | true => exact lex_of_le (by omega) (by simp)
    | false => exact .left _ _ (Nat.lt_of_lt_of_le (start_lt rfl) tokens_le)

/-- A stream of one document, which needs no mark. -/
theorem documentsFrom?_of_document? {version : Version} {tokens rest : List Token} {token : Token}
    {node : Node} (start : documentTokens version true tokens = token :: rest)
    (read : document? version true (token :: rest) = some (node, [])) :
    documentsFrom? version true true tokens = some [node] := by
  have finished : ∀ implicit, documentsFrom? version false implicit [] = some [] := by
    intro implicit
    rw [documentsFrom?]
    rfl
  rw [documentsFrom?, start]
  split
  · simp at *
  · split
    · simp_all
    · simp_all [takeEnd, mayFollow]

def documents? (version : Version) (text : String) : Option (List Node) := do
  let tokens ← tokens? version text
  documentsFrom? version true true tokens

end MapBlocks.Yaml
