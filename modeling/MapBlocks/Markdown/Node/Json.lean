import MapBlocks.Json.Printer
import MapBlocks.Json.Reader
import MapBlocks.Markdown.Node

/-!
# The JSON form of Markdown trees

A node is an object with its kind under `type`, then its attributes, its children and its
position. Reading also takes an array that starts with the kind. A node of a known kind whose
fields do not fit is read as a node of an unknown kind with the same name, which keeps them.
-/

namespace MapBlocks.Markdown

namespace Container

def fields : Container → List (String × Json)
  | .heading depth => [("depth", .num (.int depth.toNat))]
  | .list ordered start spread =>
      Json.present
        [("ordered", some (.bool ordered)), ("start", start.map fun n => .num (.int n.toNat)),
          ("spread", some (.bool spread))]
  | .listItem spread checked =>
      Json.present [("spread", some (.bool spread)), ("checked", checked.map .bool)]
  | .link url title => Json.present [("url", some (.str url)), ("title", title.map .str)]
  | .root | .paragraph | .blockquote | .emphasis | .strong => []

/-- The names of the attributes of a kind of container, in order. -/
def fieldNames? : String → Option (List String)
  | "root" => some []
  | "paragraph" => some []
  | "heading" => some ["depth"]
  | "blockquote" => some []
  | "list" => some ["ordered", "start", "spread"]
  | "listItem" => some ["spread", "checked"]
  | "emphasis" => some []
  | "strong" => some []
  | "link" => some ["url", "title"]
  | _ => none

def ofFields? (name : String) (fields : List (String × Json)) : Option Container :=
  match name with
  | "root" => some .root
  | "paragraph" => some .paragraph
  | "heading" => do
      let depth ← Json.required? fields "depth" (Json.below? (Nat.pow 2 8))
      some (.heading (UInt8.ofNat depth))
  | "blockquote" => some .blockquote
  | "list" => do
      let ordered ← Json.defaulted? fields "ordered" false Json.boolean?
      let start ← Json.optional? fields "start" (Json.below? (Nat.pow 2 32))
      let spread ← Json.defaulted? fields "spread" false Json.boolean?
      some (.list ordered (start.map UInt32.ofNat) spread)
  | "listItem" => do
      let spread ← Json.defaulted? fields "spread" false Json.boolean?
      let checked ← Json.optional? fields "checked" Json.boolean?
      some (.listItem spread checked)
  | "emphasis" => some .emphasis
  | "strong" => some .strong
  | "link" => do
      let url ← Json.required? fields "url" Json.string?
      let title ← Json.optional? fields "title" Json.string?
      some (.link url title)
  | _ => none

end Container

namespace Leaf

def fields : Leaf → List (String × Json)
  | .code language info value =>
      Json.present
        [("lang", language.map .str), ("meta", info.map .str), ("value", some (.str value))]
  | .html value => [("value", .str value)]
  | .thematicBreak => []
  | .text value => [("value", .str value)]
  | .inlineCode value => [("value", .str value)]
  | .image url alt title =>
      Json.present [("url", some (.str url)), ("alt", alt.map .str), ("title", title.map .str)]
  | .hardBreak => []
  | .frontMatter value => [("value", .str value)]

/-- The names of the attributes of a kind of leaf, in order. -/
def fieldNames? : String → Option (List String)
  | "code" => some ["lang", "meta", "value"]
  | "html" => some ["value"]
  | "thematicBreak" => some []
  | "text" => some ["value"]
  | "inlineCode" => some ["value"]
  | "image" => some ["url", "alt", "title"]
  | "break" => some []
  | "yaml" => some ["value"]
  | _ => none

def ofFields? (name : String) (fields : List (String × Json)) : Option Leaf :=
  let value? := Json.defaulted? fields "value" "" Json.string?
  match name with
  | "code" => do
      let language ← Json.optional? fields "lang" Json.string?
      let info ← Json.optional? fields "meta" Json.string?
      let value ← value?
      some (.code language info value)
  | "html" => value?.map .html
  | "thematicBreak" => some .thematicBreak
  | "text" => value?.map .text
  | "inlineCode" => value?.map .inlineCode
  | "image" => do
      let url ← Json.required? fields "url" Json.string?
      let alt ← Json.optional? fields "alt" Json.string?
      let title ← Json.optional? fields "title" Json.string?
      some (.image url alt title)
  | "break" => some .hardBreak
  | "yaml" => value?.map .frontMatter
  | _ => none

end Leaf

namespace Node

mutual

def toJson : Node → Json
  | .container kind children position =>
      .obj (("type", .str kind.name) :: (kind.fields
        ++ ("children", .arr (listToJson children)) :: positionField position))
  | .leaf kind position =>
      .obj (("type", .str kind.name) :: (kind.fields ++ positionField position))
  | .unknown kind children position fields =>
      .obj (("type", .str kind) :: (childrenField children ++ (positionField position ++ fields)))
where
  positionField (position : Option Position) : List (String × Json) :=
    Json.present [("position", position.map Position.toJson)]

def listToJson : List Node → List Json
  | [] => []
  | node :: rest => toJson node :: listToJson rest

/-- The field for the children of a node of unknown kind, if it has any. -/
def childrenField : Option (List Node) → List (String × Json)
  | none => []
  | some children => [("children", .arr (listToJson children))]

end

/-- The names of the known kinds. A kind may be given by its number in this list. -/
def knownNames : List String :=
  ["root", "paragraph", "heading", "code", "html", "blockquote", "list", "listItem",
    "thematicBreak", "text", "inlineCode", "emphasis", "strong", "link", "image", "break", "yaml"]

/-- The name of the known kind that a tag stands for. -/
def knownName? : Json → Option String
  | .str name => if knownNames.contains name then some name else none
  | .num (.int number) => if 0 ≤ number then knownNames[number.toNat]? else none
  | _ => none

/-- The values of a key, of all members that have it. -/
def valuesOf {α : Type} (key : String) (members : List (String × α)) : List α :=
  members.filterMap fun (name, value) => if name = key then some value else none

/-- The children of a node in which they are never `null`: none if they are left out. -/
def knownChildren? (lists : List (String × Option (List Node))) : Option (List Node) :=
  match Json.lookup? "children" lists with
  | none => some []
  | some list? => list?

/-- Reads a node of a known kind. `fieldsOf?` gives the fields of a record with the given names,
and `listsOf` what each of them is when it is read as a list of nodes. -/
def known? (name : String) (fieldsOf? : List String → Option (List (String × Json)))
    (listsOf : List String → List (String × Option (List Node))) : Option Node :=
  match Container.fieldNames? name with
  | some own => do
      let names := own ++ ["children", "position"]
      let fields ← fieldsOf? names
      let kind ← Container.ofFields? name fields
      let children ← knownChildren? (listsOf names)
      let position ← Json.optional? fields "position" Position.ofJson?
      some (.container kind children position)
  | none => do
      let own ← Leaf.fieldNames? name
      let fields ← fieldsOf? (own ++ ["position"])
      let kind ← Leaf.ofFields? name fields
      let position ← Json.optional? fields "position" Position.ofJson?
      some (.leaf kind position)

/-- Reads an object as a node of a known kind. -/
def knownOfMembers? (members : List (String × Json)) (lists : List (String × Option (List Node))) :
    Option Node :=
  match valuesOf "type" members with
  | [tag] => do
      let name ← knownName? tag
      known? name (fun names => Json.record? names (.obj members)) fun _ => lists
  | _ => none

/-- Reads an array as a node of a known kind: the kind, then the fields in order. -/
def knownOfItems? (items : List Json) (lists : List (Option (List Node))) : Option Node :=
  match items with
  | [] => none
  | tag :: rest => do
      let name ← knownName? tag
      known? name (fun names => Json.record? names (.arr rest)) fun names => names.zip lists.tail

/-- The optional children of a node of unknown kind: absent if left out or `null`. -/
def unknownChildren? (children : List Json) (lists : List (Option (List Node))) :
    Option (Option (List Node)) :=
  match children, lists with
  | [], _ => some none
  | [.null], _ => some none
  | [_], [some nodes] => some (some nodes)
  | _, _ => none

/-- Reads an object as a node of whatever kind its `type` names. -/
def unknownOfMembers? (members : List (String × Json))
    (lists : List (String × Option (List Node))) : Option Node :=
  match valuesOf "type" members with
  | [.str kind] => do
      let children ← unknownChildren? (valuesOf "children" members) (valuesOf "children" lists)
      let positions := valuesOf "position" members
      let position ←
        if positions.length ≤ 1 then Json.optional? members "position" Position.ofJson? else none
      let others := members.filter fun (key, _) => key ∉ ["type", "children", "position"]
      some (.unknown kind children position (Json.sortMembers (Json.canonicalMembers others)))
  | _ => none

mutual

def ofJson? : Json → Option Node
  | .obj members =>
      let lists := memberLists members
      knownOfMembers? members lists <|> unknownOfMembers? members lists
  | .arr items => knownOfItems? items (itemLists items)
  | _ => none

def listOfJson? : Json → Option (List Node)
  | .arr items => listOfItems? items
  | _ => none

def listOfItems? : List Json → Option (List Node)
  | [] => some []
  | item :: rest => do
      let node ← ofJson? item
      let nodes ← listOfItems? rest
      some (node :: nodes)

/-- What each member of an object is when it is read as a list of nodes. -/
def memberLists : List (String × Json) → List (String × Option (List Node))
  | [] => []
  | (key, value) :: rest => (key, listOfJson? value) :: memberLists rest

/-- What each item of an array is when it is read as a list of nodes. -/
def itemLists : List Json → List (Option (List Node))
  | [] => []
  | item :: rest => listOfJson? item :: itemLists rest

end

def jsonText (node : Node) : String := node.toJson.text

def ofText? (text : String) : Option Node := (Json.parse? text).bind ofJson?

end Node

end MapBlocks.Markdown
