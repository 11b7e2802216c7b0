import MapBlocks.Json.Reader
import MapBlocks.Proofs.JsonNumbers
import MapBlocks.Proofs.JsonStrings

/-!
# JSON texts read back

The text of a value is read in the two stages of the reader: it is divided into
the tokens of the value, and over these tokens the stack of open arrays and
objects grows and shrinks again until the tree of the value is complete.  What
the tree stands for is the value, but that a number which is not finite has
become `null`.
-/

namespace MapBlocks.Json

mutual

/-- The tokens of the text of a value. -/
def tokens : Json → List Token
  | .null => [.null]
  | .bool value => [.bool value]
  | .num number => [(number.numeral?.map Token.number).getD .null]
  | .str text => [.string (writtenPieces text.toList)]
  | .arr items => .arrayOpen :: (itemTokens items ++ [.arrayClose])
  | .obj members => .objectOpen :: (memberTokens members ++ [.objectClose])

def itemTokens : List Json → List Token
  | [] => []
  | [item] => tokens item
  | item :: rest => tokens item ++ .comma :: itemTokens rest

def memberTokens : List (String × Json) → List Token
  | [] => []
  | [(key, value)] => .string (writtenPieces key.toList) :: .colon :: tokens value
  | (key, value) :: rest =>
      .string (writtenPieces key.toList) :: .colon :: (tokens value ++ .comma :: memberTokens rest)

end

mutual

/-- The tree of the text of a value. -/
def written : Json → Written
  | .null => .null
  | .bool value => .bool value
  | .num number => (number.numeral?.map Written.number).getD .null
  | .str text => .string (writtenPieces text.toList)
  | .arr items => .array (writtenItems items)
  | .obj members => .object (writtenMembers members)

def writtenItems : List Json → List Written
  | [] => []
  | item :: rest => written item :: writtenItems rest

def writtenMembers : List (String × Json) → List (List Piece × Written)
  | [] => []
  | (key, value) :: rest => (writtenPieces key.toList, written value) :: writtenMembers rest

end

theorem token?_number (number : Number) {rest : List Char} (delimited : Delimits rest) :
    token? (number.render ++ rest) =
      some ((number.numeral?.map Token.number).getD .null, rest) := by
  match found : number.numeral? with
  | none =>
      rw [Number.render_of_numeral?_eq_none found]
      rfl
  | some numeral =>
      obtain ⟨spelled, grammatical, -⟩ := Number.render_of_numeral? found
      rw [spelled]
      exact token?_of_numeral? (Numeral.numeral?_spelled grammatical delimited)

mutual

/-- The text of a value is divided into its tokens. -/
theorem tokens?_render_append :
    (value : Json) → {rest : List Char} → Delimits rest →
    tokens? (value.render ++ rest) = (tokens? rest).map (value.tokens ++ ·)
  | .null, _, _ => tokens?_of_token? rfl
  | .bool true, _, _ => tokens?_of_token? rfl
  | .bool false, _, _ => tokens?_of_token? rfl
  | .num number, _, delimited => tokens?_of_token? (token?_number number delimited)
  | .str text, rest, _ => tokens?_of_token? (token?_quote text.toList rest)
  | .arr items, rest, _ => by
      have inner := tokens?_renderItems_append items rest
      simp only [render, List.cons_append, List.append_assoc, List.nil_append]
      rw [tokens?_of_token? rfl, inner, tokens, Option.map_map]
      rfl
  | .obj members, rest, _ => by
      have inner := tokens?_renderMembers_append members rest
      simp only [render, List.cons_append, List.append_assoc, List.nil_append]
      rw [tokens?_of_token? rfl, inner, tokens, Option.map_map]
      rfl

theorem tokens?_renderItems_append :
    (items : List Json) → (rest : List Char) →
    tokens? (renderItems items ++ ']' :: rest) =
      (tokens? rest).map ((itemTokens items ++ [.arrayClose]) ++ ·)
  | [], rest => tokens?_of_token? rfl
  | [item], rest => by
      rw [renderItems, tokens?_render_append item (delimits_cons rfl rest),
        tokens?_of_token? rfl, Option.map_map, itemTokens]
      simp only [Function.comp_def, List.append_assoc, List.cons_append, List.nil_append]
  | item :: next :: others, rest => by
      have inner := tokens?_renderItems_append (next :: others) rest
      have text : renderItems (item :: next :: others) =
          item.render ++ ',' :: renderItems (next :: others) := rfl
      have divided : itemTokens (item :: next :: others) =
          item.tokens ++ .comma :: itemTokens (next :: others) := rfl
      rw [text, divided, List.append_assoc, List.cons_append,
        tokens?_render_append item (delimits_cons rfl _), tokens?_of_token? rfl, inner]
      simp only [Option.map_map, Function.comp_def, List.append_assoc, List.cons_append]

theorem tokens?_renderMembers_append :
    (members : List (String × Json)) → (rest : List Char) →
    tokens? (renderMembers members ++ '\x7d' :: rest) =
      (tokens? rest).map ((memberTokens members ++ [.objectClose]) ++ ·)
  | [], rest => tokens?_of_token? rfl
  | [(key, value)], rest => by
      rw [renderMembers, List.append_assoc, tokens?_of_token? (token?_quote key.toList _),
        List.cons_append, tokens?_of_token? rfl,
        tokens?_render_append value (delimits_cons rfl rest), tokens?_of_token? rfl,
        memberTokens]
      simp only [Option.map_map, Function.comp_def, List.append_assoc, List.cons_append,
        List.nil_append]
  | (key, value) :: next :: others, rest => by
      have inner := tokens?_renderMembers_append (next :: others) rest
      have text : renderMembers ((key, value) :: next :: others) =
          quote key.toList ++ ':' :: (value.render ++ ',' :: renderMembers (next :: others)) := rfl
      have divided : memberTokens ((key, value) :: next :: others) =
          .string (writtenPieces key.toList) :: .colon ::
            (value.tokens ++ .comma :: memberTokens (next :: others)) := rfl
      rw [text, divided, List.append_assoc, tokens?_of_token? (token?_quote key.toList _),
        List.cons_append, tokens?_of_token? rfl, List.append_assoc, List.cons_append,
        tokens?_render_append value (delimits_cons rfl _), tokens?_of_token? rfl, inner]
      simp only [Option.map_map, Function.comp_def, List.append_assoc, List.cons_append]

end

theorem tokens?_render (value : Json) : tokens? value.render = some value.tokens := by
  have ends : Delimits [] := fun c first => absurd first (by simp)
  have read := tokens?_render_append value ends
  rw [List.append_nil, tokens?, Option.map_some, List.append_nil] at read
  exact read

namespace Written

/-- Where a value may start. The first item of an array may be missing. -/
def Stage.Begins (stage : Stage) : Prop := stage = .value ∨ stage = .firstItem

/-- Where the key of a member may start. The first member of an object may be missing. -/
def Stage.BeginsMember (stage : Stage) : Prop := stage = .key ∨ stage = .firstKey

theorem step_of_begins
    {stage : Stage} (begins : stage.Begins) (frames : List Frame) {token : Token}
    (opens : token ≠ .arrayClose) :
    Progress.step ⟨frames, stage⟩ token = begin? frames token := by
  rcases begins with rfl | rfl
  · cases token <;> rfl
  · cases token
    case arrayClose => exact absurd rfl opens
    all_goals rfl

theorem step_of_beginsMember
    {stage : Stage} (begins : stage.BeginsMember) (members : List (List Piece × Written))
    (frames : List Frame) (key : List Piece) :
    Progress.step ⟨.object members :: frames, stage⟩ (.string key) =
      some ⟨.member members key :: frames, .colon⟩ := by
  rcases begins with rfl | rfl <;> rfl

theorem foldlM_token
    {stage : Stage} (begins : stage.Begins) (frames : List Frame) {token : Token}
    (opens : token ≠ .arrayClose) (rest : List Token) :
    (token :: rest).foldlM Progress.step ⟨frames, stage⟩ =
      (begin? frames token).bind fun progress => rest.foldlM Progress.step progress := by
  rw [List.foldlM_cons, step_of_begins begins frames opens]
  rfl

theorem foldlM_single
    {stage : Stage} (begins : stage.Begins) (frames : List Frame) {token : Token}
    (opens : token ≠ .arrayClose) :
    [token].foldlM Progress.step ⟨frames, stage⟩ = begin? frames token := by
  rw [foldlM_token begins frames opens]
  exact Option.bind_fun_some _

mutual

/-- The tokens of a value complete its tree. -/
theorem foldlM_tokens :
    (value : Json) → (frames : List Frame) → {stage : Stage} → stage.Begins →
    value.tokens.foldlM Progress.step ⟨frames, stage⟩ = complete value.written frames
  | .null, frames, _, begins => foldlM_single begins frames (by simp)
  | .bool value, frames, _, begins => foldlM_single begins frames (by simp)
  | .num value, frames, _, begins => by
      rw [tokens, written]
      cases value.numeral? with
      | none => exact foldlM_single begins frames (by simp)
      | some numeral => exact foldlM_single begins frames (by simp)
  | .str text, frames, _, begins => foldlM_single begins frames (by simp)
  | .arr items, frames, _, begins => by
      rw [tokens, foldlM_token begins frames (by simp)]
      exact foldlM_itemTokens items [] frames (.inr rfl) (fun _ => rfl)
  | .obj members, frames, _, begins => by
      rw [tokens, foldlM_token begins frames (by simp)]
      exact foldlM_memberTokens members [] frames (.inr rfl) (fun _ => rfl)

/-- The tokens of items fill an open array, which the closing bracket completes. -/
theorem foldlM_itemTokens :
    (items : List Json) → (read : List Written) → (frames : List Frame) →
    {stage : Stage} → stage.Begins → (items = [] → stage = .firstItem) →
    (itemTokens items ++ [Token.arrayClose]).foldlM Progress.step ⟨.array read :: frames, stage⟩ =
      complete (.array (read.reverse ++ writtenItems items)) frames
  | [], read, frames, stage, _, first => by
      -- Only the first item may be missing: a bracket does not follow a comma.
      rw [first rfl, writtenItems, List.append_nil]
      exact Option.bind_fun_some _
  | [item], read, frames, stage, begins, _ => by
      have collected : read.reverse ++ writtenItems [item] = (item.written :: read).reverse :=
        List.reverse_cons.symm
      rw [itemTokens, List.foldlM_append, foldlM_tokens item (.array read :: frames) begins,
        collected]
      exact Option.bind_fun_some _
  | item :: next :: others, read, frames, stage, begins, _ => by
      have inner := foldlM_itemTokens (next :: others) (item.written :: read) frames (.inl rfl)
        (fun none => absurd none (by simp))
      have divided : itemTokens (item :: next :: others) =
          item.tokens ++ .comma :: itemTokens (next :: others) := rfl
      rw [List.reverse_cons, List.append_assoc] at inner
      rw [divided, List.append_assoc, List.foldlM_append,
        foldlM_tokens item (.array read :: frames) begins]
      exact inner

/-- The tokens of members fill an open object, which the closing brace completes. -/
theorem foldlM_memberTokens :
    (members : List (String × Json)) → (read : List (List Piece × Written)) →
    (frames : List Frame) → {stage : Stage} → stage.BeginsMember →
    (members = [] → stage = .firstKey) →
    (memberTokens members ++ [Token.objectClose]).foldlM Progress.step
      ⟨.object read :: frames, stage⟩ =
      complete (.object (read.reverse ++ writtenMembers members)) frames
  | [], read, frames, stage, _, first => by
      rw [first rfl, writtenMembers, List.append_nil]
      exact Option.bind_fun_some _
  | [(key, value)], read, frames, stage, begins, _ => by
      have member := foldlM_tokens value
        (.member read (writtenPieces key.toList) :: frames) (.inl rfl)
      have collected : read.reverse ++ writtenMembers [(key, value)] =
          ((writtenPieces key.toList, value.written) :: read).reverse := List.reverse_cons.symm
      rw [memberTokens, List.cons_append, List.cons_append, List.foldlM_cons,
        step_of_beginsMember begins]
      change (value.tokens ++ [Token.objectClose]).foldlM Progress.step
        ⟨.member read (writtenPieces key.toList) :: frames, .value⟩ = _
      rw [List.foldlM_append, member, collected]
      exact Option.bind_fun_some _
  | (key, value) :: next :: others, read, frames, stage, begins, _ => by
      have member := foldlM_tokens value
        (.member read (writtenPieces key.toList) :: frames) (.inl rfl)
      have inner := foldlM_memberTokens (next :: others)
        ((writtenPieces key.toList, value.written) :: read) frames (.inl rfl)
        (fun none => absurd none (by simp))
      rw [List.reverse_cons, List.append_assoc] at inner
      have divided : memberTokens ((key, value) :: next :: others) =
          .string (writtenPieces key.toList) :: .colon ::
            (value.tokens ++ .comma :: memberTokens (next :: others)) := rfl
      rw [divided, List.cons_append, List.cons_append, List.foldlM_cons,
        step_of_beginsMember begins, List.append_assoc]
      change (value.tokens ++ (.comma :: memberTokens (next :: others) ++
        [Token.objectClose])).foldlM Progress.step
        ⟨.member read (writtenPieces key.toList) :: frames, .value⟩ = _
      rw [List.foldlM_append, member]
      exact inner

end

/-- The text of a value is read as the tree of the value. -/
theorem parse?_render (value : Json) : parse? value.render = some value.written := by
  have spelled := foldlM_tokens value [] (.inl rfl)
  rw [parse?, tokens?_render, Option.bind_some, ofTokens?, spelled]
  rfl

mutual

/-- What a written text stands for, with the nearest number to each numeral. -/
def nearest? : Written → Option Json
  | .null => some .null
  | .bool value => some (.bool value)
  | .number numeral => numeral.nearest?.map .num
  | .string pieces => (textOf? pieces).map fun text => .str (String.ofList text)
  | .array items => (nearestItems? items).map .arr
  | .object members => (nearestMembers? members).map .obj

def nearestItems? : List Written → Option (List Json)
  | [] => some []
  | item :: rest => do
      let value ← nearest? item
      let values ← nearestItems? rest
      some (value :: values)

def nearestMembers? : List (List Piece × Written) → Option (List (String × Json))
  | [] => some []
  | (pieces, item) :: rest => do
      let key ← (textOf? pieces).map String.ofList
      let value ← nearest? item
      let values ← nearestMembers? rest
      some ((key, value) :: values)

end

end Written

mutual

/-- What can be told of a value from its text: `null` stands for numbers that are not finite. -/
def legible : Json → Json
  | .null => .null
  | .bool value => .bool value
  | .num number => if number.numeral?.isSome then .num number else .null
  | .str text => .str text
  | .arr items => .arr (legibleItems items)
  | .obj members => .obj (legibleMembers members)

def legibleItems : List Json → List Json
  | [] => []
  | item :: rest => legible item :: legibleItems rest

def legibleMembers : List (String × Json) → List (String × Json)
  | [] => []
  | (key, value) :: rest => (key, legible value) :: legibleMembers rest

end

mutual

theorem nearest?_written : (value : Json) → value.written.nearest? = some value.legible
  | .null => rfl
  | .bool value => rfl
  | .num number => by
      rw [written, legible]
      match found : number.numeral? with
      | none => rfl
      | some numeral =>
          obtain ⟨-, -, same⟩ := Number.render_of_numeral? found
          change numeral.nearest?.map Json.num = _
          rw [same]
          rfl
  | .str text => by
      rw [written, Written.nearest?, textOf?_writtenPieces, Option.map_some, String.ofList_toList]
      rfl
  | .arr items => by
      rw [written, Written.nearest?, nearestItems?_writtenItems items]
      rfl
  | .obj members => by
      rw [written, Written.nearest?, nearestMembers?_writtenMembers members]
      rfl

theorem nearestItems?_writtenItems :
    (items : List Json) → Written.nearestItems? (writtenItems items) = some (legibleItems items)
  | [] => rfl
  | item :: rest => by
      rw [writtenItems, Written.nearestItems?, nearest?_written item,
        nearestItems?_writtenItems rest]
      rfl

theorem nearestMembers?_writtenMembers :
    (members : List (String × Json)) →
    Written.nearestMembers? (writtenMembers members) = some (legibleMembers members)
  | [] => rfl
  | (key, value) :: rest => by
      rw [writtenMembers, Written.nearestMembers?, textOf?_writtenPieces, nearest?_written value,
        nearestMembers?_writtenMembers rest, Option.map_some, String.ofList_toList]
      rfl

end

/-- What a JSON text stands for, with the nearest number to each numeral in it. -/
def read? (text : String) : Option Json := (Written.parse? text.toList).bind Written.nearest?

/-- A value is read back from its text, as far as JSON can write it. -/
theorem read?_text (value : Json) : read? value.text = some value.legible := by
  rw [read?, text, String.toList_ofList, Written.parse?_render, Option.bind_some, nearest?_written]

theorem map_fst_legibleMembers (members : List (String × Json)) :
    (legibleMembers members).map Prod.fst = members.map Prod.fst := by
  induction members with
  | nil => rfl
  | cons member rest induction => exact congrArg (member.1 :: ·) induction

theorem lookup?_legibleMembers (key : String) (members : List (String × Json)) :
    lookup? key (legibleMembers members) = (lookup? key members).map legible := by
  induction members with
  | nil => rfl
  | cons member rest induction =>
      simp only [legibleMembers, lookup?, induction]
      split <;> rfl

end MapBlocks.Json
