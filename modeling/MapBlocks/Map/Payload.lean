import MapBlocks.Yaml.Value.OfNode

/-!
# Payloads of map blocks

The text of a map block is a YAML mapping, whose values may be of any kind. A key without a value
counts as a key that is not there.
-/

namespace MapBlocks

/-- The key-value pairs of a map block. -/
structure Payload where
  entries : List (Yaml.Value × Yaml.Value)
  deriving Inhabited

/-- Why a text is no payload. -/
inductive PayloadError where
  /-- The YAML reader cannot read the text; the reason is its own. -/
  | malformed (reason : String)
  | multipleDocuments (count : Nat)
  deriving DecidableEq, Repr

def PayloadError.message : PayloadError → String
  | .malformed reason => reason
  | .multipleDocuments count =>
      "expected a single YAML document, found " ++ String.ofList (Nat.toDigits 10 count)

namespace Payload

def empty : Payload := ⟨[]⟩

/-- The payload that a value is; a value that is no mapping has no keys. -/
def ofValue : Yaml.Value → Payload
  | .map entries => ⟨entries⟩
  | _ => .empty

/-- The payload of the documents of a text, of which there must be at most one. -/
def ofDocuments : List Yaml.Value → Except PayloadError Payload
  | [] => .ok .empty
  | [value] => .ok (ofValue value)
  | values => .error (.multipleDocuments values.length)

/-- Reads a payload. `diagnose` is what the YAML reader says about a text that it cannot read. -/
def parse (diagnose : String → String) (text : String) : Except PayloadError Payload :=
  match Yaml.Value.documents? text with
  | none => .error (.malformed (diagnose text))
  | some values => ofDocuments values

/-- Reads a payload; a text that is none has no keys, whatever is said about it. -/
def parseOrEmpty (text : String) : Payload :=
  match parse (fun _ => "") text with
  | .ok payload => payload
  | .error _ => .empty

theorem parseOrEmpty_eq_parse (diagnose : String → String) (text : String) :
    parseOrEmpty text =
      match parse diagnose text with
      | .ok payload => payload
      | .error _ => .empty := by
  unfold parseOrEmpty parse
  cases Yaml.Value.documents? text <;> rfl

/-- The value of a key, unless it is null. -/
def get? (payload : Payload) (key : String) : Option Yaml.Value :=
  (Yaml.Value.map payload.entries).field? key

/-- The value of the first of some keys that has one. -/
def first? (payload : Payload) (keys : List String) : Option Yaml.Value :=
  keys.findSome? payload.get?

def isEmpty (payload : Payload) : Bool := payload.entries.isEmpty

end Payload

end MapBlocks
