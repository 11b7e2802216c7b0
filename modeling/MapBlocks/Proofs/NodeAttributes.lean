import MapBlocks.Markdown.Node.Json
import MapBlocks.Proofs.CanonicalJson
import MapBlocks.Proofs.JsonReading

/-!
# Attributes of nodes

The attributes of a known kind are read back from any record that has them under
their names, whatever else it holds.  What is read depends on the canonical form of
the attributes only, so that it is the same in the sorted fields of a node of
unknown kind.
-/

namespace MapBlocks.Json

section Congruence

variable {α : Type} {members others : List (String × Json)} {key : String}
  {read : Json → Option α}

theorem required?_congr
    (blind : ∀ value, read value.canonical = read value)
    (same : (lookup? key members).map canonical = (lookup? key others).map canonical) :
    required? members key read = required? others key read := by
  have reading : ∀ fields : List (String × Json),
      required? fields key read = ((lookup? key fields).map canonical).bind read := by
    intro fields
    rw [required?]
    cases lookup? key fields with
    | none => rfl
    | some value => exact (blind value).symm
  rw [reading, reading, same]

theorem defaulted?_congr
    {default : α} (blind : ∀ value, read value.canonical = read value)
    (same : (lookup? key members).map canonical = (lookup? key others).map canonical) :
    defaulted? members key default read = defaulted? others key default read := by
  have reading : ∀ fields : List (String × Json),
      defaulted? fields key default read =
        ((lookup? key fields).map canonical).elim (some default) read := by
    intro fields
    rw [defaulted?]
    cases lookup? key fields with
    | none => rfl
    | some value => exact (blind value).symm
  rw [reading, reading, same]

theorem optional?_congr
    (blind : ∀ value, read value.canonical = read value)
    (same : (lookup? key members).map canonical = (lookup? key others).map canonical) :
    optional? members key read = optional? others key read := by
  -- A lookup is all that is read, and a value may as well be in canonical form.
  have reading : ∀ fields : List (String × Json),
      optional? fields key read =
        optional? (((lookup? key fields).map canonical).toList.map (key, ·)) key read := by
    intro fields
    rw [optional?, optional?]
    cases lookup? key fields with
    | none => rfl
    | some value =>
        have found : lookup? key [(key, value.canonical)] = some value.canonical := by
          rw [lookup?, if_pos rfl]
        rw [Option.map_some, Option.toList_some, List.map_singleton, found]
        cases value with
        | null => rfl
        | _ => exact congrArg (Option.map some) (blind _).symm
  rw [reading members, reading others, same]

end Congruence

theorem string?_canonical (value : Json) : string? value.canonical = string? value := by
  cases value <;> rfl

theorem boolean?_canonical (value : Json) : boolean? value.canonical = boolean? value := by
  cases value <;> rfl

theorem below?_canonical (limit : Nat) (value : Json) :
    below? limit value.canonical = below? limit value := by
  cases value <;> rfl

theorem below?_int {limit value : Nat} (bound : value < limit) :
    below? limit (.num (.int value)) = some value := by
  have within : (0 : ℤ) ≤ value ∧ (value : ℤ) < limit := by omega
  rw [below?, if_pos within, Int.toNat_natCast]

end MapBlocks.Json

namespace MapBlocks.Markdown

namespace Container

/-- The attributes of a container, some of which may have no value. -/
def entries : Container → List (String × Option Json)
  | .heading depth => [("depth", some (.num (.int depth.toNat)))]
  | .list ordered start spread =>
      [("ordered", some (.bool ordered)), ("start", start.map fun n => .num (.int n.toNat)),
        ("spread", some (.bool spread))]
  | .listItem spread checked =>
      [("spread", some (.bool spread)), ("checked", checked.map .bool)]
  | .link url title => [("url", some (.str url)), ("title", title.map .str)]
  | .root | .paragraph | .blockquote | .emphasis | .strong => []

theorem fields_eq (kind : Container) : kind.fields = Json.present kind.entries := by
  cases kind <;> rfl

theorem fieldNames?_name (kind : Container) :
    fieldNames? kind.name = some (kind.entries.map Prod.fst) := by
  cases kind <;> rfl

theorem ofFields?_of_lookup
    (kind : Container) {members : List (String × Json)}
    (found : ∀ entry ∈ kind.entries, Json.lookup? entry.1 members = entry.2) :
    ofFields? kind.name members = some kind := by
  cases kind with
  | root | paragraph | blockquote | emphasis | strong => rfl
  | heading depth =>
      simp only [entries, List.forall_mem_cons] at found
      have read : Json.required? members "depth" (Json.below? (Nat.pow 2 8)) =
          some depth.toNat :=
        (Json.required?_of_lookup found.1 _).trans (Json.below?_int depth.toNat_lt)
      simp only [name, ofFields?, Option.bind_eq_bind, Option.bind_eq_some_iff]
      exact ⟨_, read, by rw [UInt8.ofNat_toNat]⟩
  | list ordered start spread =>
      simp only [entries, List.forall_mem_cons] at found
      obtain ⟨foundOrdered, foundStart, foundSpread, -⟩ := found
      have readOrdered : Json.defaulted? members "ordered" false Json.boolean? = some ordered :=
        Json.defaulted?_of_lookup foundOrdered _ _
      have readStart : Json.optional? members "start" (Json.below? (Nat.pow 2 32)) =
          some (start.map UInt32.toNat) := by
        apply Json.optional?_of_lookup? fun number : Nat => .num (.int number)
        · rw [foundStart, Option.map_map]
          rfl
        · rfl
        · rintro _ written
          obtain ⟨number, _, rfl⟩ := Option.map_eq_some_iff.mp written
          exact Json.below?_int number.toNat_lt
      have readSpread : Json.defaulted? members "spread" false Json.boolean? = some spread :=
        Json.defaulted?_of_lookup foundSpread _ _
      have restored : (start.map UInt32.toNat).map UInt32.ofNat = start := by
        cases start <;> simp
      simp only [name, ofFields?, Option.bind_eq_bind, Option.bind_eq_some_iff]
      exact ⟨_, readOrdered, _, readStart, _, readSpread, by rw [restored]⟩
  | listItem spread checked =>
      simp only [entries, List.forall_mem_cons] at found
      have readSpread : Json.defaulted? members "spread" false Json.boolean? = some spread :=
        Json.defaulted?_of_lookup found.1 _ _
      have readChecked : Json.optional? members "checked" Json.boolean? = some checked :=
        Json.optional?_of_lookup? Json.bool found.2.1 rfl fun _ _ => rfl
      simp only [name, ofFields?, Option.bind_eq_bind, Option.bind_eq_some_iff]
      exact ⟨_, readSpread, _, readChecked, rfl⟩
  | link url title =>
      simp only [entries, List.forall_mem_cons] at found
      have readUrl : Json.required? members "url" Json.string? = some url :=
        Json.required?_of_lookup found.1 _
      have readTitle : Json.optional? members "title" Json.string? = some title :=
        Json.optional?_of_lookup? Json.str found.2.1 rfl fun _ _ => rfl
      simp only [name, ofFields?, Option.bind_eq_bind, Option.bind_eq_some_iff]
      exact ⟨_, readUrl, _, readTitle, rfl⟩

theorem mem_knownNames_of_fieldNames?
    {name : String} {own : List String} (names : fieldNames? name = some own) :
    name ∈ Node.knownNames := by
  revert names
  fun_cases fieldNames? name <;> intro names
  case case10 => cases names
  all_goals simp [Node.knownNames]

/-- No attribute has the name of a field that all nodes share. -/
theorem not_mem_fieldNames?
    {name : String} {own : List String} (names : fieldNames? name = some own) :
    ∀ key ∈ own, key ∉ ["type", "children", "position"] := by
  revert names
  fun_cases fieldNames? name <;> intro names <;> cases names <;> simp

theorem ofFields?_of_unnamed
    {name : String} (unnamed : fieldNames? name = none) (members : List (String × Json)) :
    ofFields? name members = none := by
  revert unnamed
  fun_cases fieldNames? name <;> intro unnamed
  case case10 => simp [ofFields?, *]
  all_goals cases unnamed

/-- No more is read than the attributes, and of these no more than their canonical form. -/
theorem ofFields?_congr
    {name : String} {own : List String} {members others : List (String × Json)}
    (names : fieldNames? name = some own)
    (same : ∀ key ∈ own, (Json.lookup? key members).map Json.canonical =
      (Json.lookup? key others).map Json.canonical) :
    ofFields? name members = ofFields? name others := by
  revert names
  fun_cases fieldNames? name <;> intro names <;> cases names
  case case3 =>
    have depth : Json.required? members "depth" (Json.below? (Nat.pow 2 8)) =
        Json.required? others "depth" (Json.below? (Nat.pow 2 8)) :=
      Json.required?_congr (Json.below?_canonical _) (same "depth" (by simp))
    simp only [ofFields?, depth]
  case case5 =>
    have ordered : Json.defaulted? members "ordered" false Json.boolean? =
        Json.defaulted? others "ordered" false Json.boolean? :=
      Json.defaulted?_congr Json.boolean?_canonical (same "ordered" (by simp))
    have start : Json.optional? members "start" (Json.below? (Nat.pow 2 32)) =
        Json.optional? others "start" (Json.below? (Nat.pow 2 32)) :=
      Json.optional?_congr (Json.below?_canonical _) (same "start" (by simp))
    have spread : Json.defaulted? members "spread" false Json.boolean? =
        Json.defaulted? others "spread" false Json.boolean? :=
      Json.defaulted?_congr Json.boolean?_canonical (same "spread" (by simp))
    simp only [ofFields?, ordered, start, spread]
  case case6 =>
    have spread : Json.defaulted? members "spread" false Json.boolean? =
        Json.defaulted? others "spread" false Json.boolean? :=
      Json.defaulted?_congr Json.boolean?_canonical (same "spread" (by simp))
    have checked : Json.optional? members "checked" Json.boolean? =
        Json.optional? others "checked" Json.boolean? :=
      Json.optional?_congr Json.boolean?_canonical (same "checked" (by simp))
    simp only [ofFields?, spread, checked]
  case case9 =>
    have url : Json.required? members "url" Json.string? =
        Json.required? others "url" Json.string? :=
      Json.required?_congr Json.string?_canonical (same "url" (by simp))
    have title : Json.optional? members "title" Json.string? =
        Json.optional? others "title" Json.string? :=
      Json.optional?_congr Json.string?_canonical (same "title" (by simp))
    simp only [ofFields?, url, title]
  all_goals rfl

theorem numbersReadBack_entries (kind : Container) :
    ∀ entry ∈ kind.entries, ∀ value ∈ entry.2, value.NumbersReadBack := by
  cases kind with
  | root | paragraph | blockquote | emphasis | strong => exact List.forall_mem_nil _
  | heading depth =>
      simp only [entries, List.forall_mem_cons, Option.mem_some_iff, forall_eq']
      have bound := depth.toNat_lt
      refine ⟨Json.numbersReadBack_num_iff.mpr ?_, List.forall_mem_nil _⟩
      apply Json.Number.readsBack_int <;> omega
  | list ordered start spread =>
      simp only [entries, List.forall_mem_cons, Option.mem_some_iff, forall_eq']
      refine ⟨Json.numbersReadBack_bool _, ?_, Json.numbersReadBack_bool _, List.forall_mem_nil _⟩
      apply Json.numbersReadBack_of_mem_map
      intro number
      have bound := number.toNat_lt
      apply Json.numbersReadBack_num_iff.mpr
      apply Json.Number.readsBack_int <;> omega
  | listItem spread checked =>
      simp only [entries, List.forall_mem_cons, Option.mem_some_iff, forall_eq']
      exact ⟨Json.numbersReadBack_bool _,
        Json.numbersReadBack_of_mem_map Json.numbersReadBack_bool, List.forall_mem_nil _⟩
  | link url title =>
      simp only [entries, List.forall_mem_cons, Option.mem_some_iff, forall_eq']
      exact ⟨Json.numbersReadBack_str _,
        Json.numbersReadBack_of_mem_map Json.numbersReadBack_str, List.forall_mem_nil _⟩

end Container

namespace Leaf

/-- The attributes of a leaf, some of which may have no value. -/
def entries : Leaf → List (String × Option Json)
  | .code language info value =>
      [("lang", language.map .str), ("meta", info.map .str), ("value", some (.str value))]
  | .image url alt title =>
      [("url", some (.str url)), ("alt", alt.map .str), ("title", title.map .str)]
  | .html value | .text value | .inlineCode value | .frontMatter value =>
      [("value", some (.str value))]
  | .thematicBreak | .hardBreak => []

theorem fields_eq (kind : Leaf) : kind.fields = Json.present kind.entries := by
  cases kind <;> rfl

theorem fieldNames?_name (kind : Leaf) :
    fieldNames? kind.name = some (kind.entries.map Prod.fst) := by
  cases kind <;> rfl

theorem ofFields?_of_lookup
    (kind : Leaf) {members : List (String × Json)}
    (found : ∀ entry ∈ kind.entries, Json.lookup? entry.1 members = entry.2) :
    ofFields? kind.name members = some kind := by
  cases kind with
  | thematicBreak | hardBreak => rfl
  | code language info value =>
      simp only [entries, List.forall_mem_cons] at found
      have readLanguage : Json.optional? members "lang" Json.string? = some language :=
        Json.optional?_of_lookup? Json.str found.1 rfl fun _ _ => rfl
      have readInfo : Json.optional? members "meta" Json.string? = some info :=
        Json.optional?_of_lookup? Json.str found.2.1 rfl fun _ _ => rfl
      have readValue : Json.defaulted? members "value" "" Json.string? = some value :=
        Json.defaulted?_of_lookup found.2.2.1 _ _
      simp only [name, ofFields?, Option.bind_eq_bind, Option.bind_eq_some_iff]
      exact ⟨_, readLanguage, _, readInfo, _, readValue, rfl⟩
  | image url alt title =>
      simp only [entries, List.forall_mem_cons] at found
      have readUrl : Json.required? members "url" Json.string? = some url :=
        Json.required?_of_lookup found.1 _
      have readAlt : Json.optional? members "alt" Json.string? = some alt :=
        Json.optional?_of_lookup? Json.str found.2.1 rfl fun _ _ => rfl
      have readTitle : Json.optional? members "title" Json.string? = some title :=
        Json.optional?_of_lookup? Json.str found.2.2.1 rfl fun _ _ => rfl
      simp only [name, ofFields?, Option.bind_eq_bind, Option.bind_eq_some_iff]
      exact ⟨_, readUrl, _, readAlt, _, readTitle, rfl⟩
  | html value | text value | inlineCode value | frontMatter value =>
      simp only [entries, List.forall_mem_cons] at found
      have readValue : Json.defaulted? members "value" "" Json.string? = some value :=
        Json.defaulted?_of_lookup found.1 _ _
      simp only [name, ofFields?, readValue, Option.map_some]

theorem mem_knownNames_of_fieldNames?
    {name : String} {own : List String} (names : fieldNames? name = some own) :
    name ∈ Node.knownNames := by
  revert names
  fun_cases fieldNames? name <;> intro names
  case case9 => cases names
  all_goals simp [Node.knownNames]

/-- No attribute has the name of a field that all nodes share. -/
theorem not_mem_fieldNames?
    {name : String} {own : List String} (names : fieldNames? name = some own) :
    ∀ key ∈ own, key ∉ ["type", "children", "position"] := by
  revert names
  fun_cases fieldNames? name <;> intro names <;> cases names <;> simp

/-- No leaf has the name of a container. -/
theorem fieldNames?_of_leaf
    {name : String} {own : List String} (names : fieldNames? name = some own) :
    Container.fieldNames? name = none := by
  revert names
  fun_cases fieldNames? name <;> intro names <;> cases names <;> rfl

theorem ofFields?_of_unnamed
    {name : String} (unnamed : fieldNames? name = none) (members : List (String × Json)) :
    ofFields? name members = none := by
  revert unnamed
  fun_cases fieldNames? name <;> intro unnamed
  case case9 => simp [ofFields?, *]
  all_goals cases unnamed

/-- No more is read than the attributes, and of these no more than their canonical form. -/
theorem ofFields?_congr
    {name : String} {own : List String} {members others : List (String × Json)}
    (names : fieldNames? name = some own)
    (same : ∀ key ∈ own, (Json.lookup? key members).map Json.canonical =
      (Json.lookup? key others).map Json.canonical) :
    ofFields? name members = ofFields? name others := by
  have value (listed : "value" ∈ own) : Json.defaulted? members "value" "" Json.string? =
      Json.defaulted? others "value" "" Json.string? :=
    Json.defaulted?_congr Json.string?_canonical (same "value" listed)
  have optional (key : String) (listed : key ∈ own) :
      Json.optional? members key Json.string? = Json.optional? others key Json.string? :=
    Json.optional?_congr Json.string?_canonical (same key listed)
  revert names
  fun_cases fieldNames? name <;> intro names <;> cases names
  case case1 =>
    simp only [ofFields?, optional "lang" (by simp), optional "meta" (by simp), value (by simp)]
  case case6 =>
    have url : Json.required? members "url" Json.string? =
        Json.required? others "url" Json.string? :=
      Json.required?_congr Json.string?_canonical (same "url" (by simp))
    simp only [ofFields?, url, optional "alt" (by simp), optional "title" (by simp)]
  case case3 | case7 => rfl
  all_goals simp only [ofFields?, value (by simp)]

/-- The attributes of a leaf are texts. -/
theorem text_of_entry (kind : Leaf) :
    ∀ entry ∈ kind.entries, ∀ value ∈ entry.2, ∃ text, value = .str text := by
  have optional (text? : Option String) :
      ∀ value ∈ text?.map Json.str, ∃ text, value = .str text := by
    intro value written
    obtain ⟨text, -, rfl⟩ := Option.map_eq_some_iff.mp written
    exact ⟨text, rfl⟩
  cases kind with
  | thematicBreak | hardBreak => exact List.forall_mem_nil _
  | code language info value =>
      simp only [entries, List.forall_mem_cons, Option.mem_some_iff, forall_eq']
      exact ⟨optional language, optional info, ⟨value, rfl⟩, List.forall_mem_nil _⟩
  | image url alt title =>
      simp only [entries, List.forall_mem_cons, Option.mem_some_iff, forall_eq']
      exact ⟨⟨url, rfl⟩, optional alt, optional title, List.forall_mem_nil _⟩
  | html value | text value | inlineCode value | frontMatter value =>
      simp only [entries, List.forall_mem_cons, Option.mem_some_iff, forall_eq']
      exact ⟨⟨value, rfl⟩, List.forall_mem_nil _⟩

theorem numbersReadBack_entries (kind : Leaf) :
    ∀ entry ∈ kind.entries, ∀ value ∈ entry.2, value.NumbersReadBack := by
  intro entry listed value written
  obtain ⟨text, rfl⟩ := kind.text_of_entry entry listed value written
  exact Json.numbersReadBack_str text

end Leaf

end MapBlocks.Markdown
