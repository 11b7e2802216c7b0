import Mathlib.Data.List.Forall2
import MapBlocks.Proofs.ElementClosings
import MapBlocks.Proofs.ScriptLiterals

/-!
# Escapes of scripts

A page reads a script up to its closing tag, with one exception: after `<!--` and
before the next `-->` a tag `<script` makes it pass over a closing tag.  Only the
texts of a description can bring these marks into a script.  They do so with all
that they hold, for breaking up `</` leaves the marks as they are: a script is
closed by its own tag unless the texts together have it escape twice.
-/

namespace MapBlocks

/-- What a page looks for in a script besides its end. -/
inductive Mark where
  /-- From `<!--` on a script is escaped. -/
  | opening
  /-- With `-->` the escape ends.  The hyphens may be those of the opening. -/
  | closing
  /-- The name `script` after `<`, in any letter case, and the end of the name. -/
  | tag
  deriving DecidableEq

/-- A pattern: the characters that may stand in each place. -/
abbrev Pattern := List (List Char)

def Pattern.exactly (text : String) : Pattern := text.toList.map fun c => [c]

def Pattern.inAnyCase (text : String) : Pattern := text.toList.map fun c => [c, c.toUpper]

/-- Whether a text starts with a pattern. -/
def Pattern.fits : Pattern → List Char → Bool
  | [], _ => true
  | _ :: _, [] => false
  | allowed :: others, c :: rest => allowed.contains c && fits others rest

/-- The characters after which the name of a tag is complete in a page. -/
def nameEnds : List Char := ['\t', '\n', '\x0c', '\r', ' ', '/', '>']

/-- Whether a character stands for itself in a JSON string. -/
def isPlain (c : Char) : Bool := c != '"' && c != '\\' && 32 ≤ c.toNat

namespace Mark

def first : Mark → Char
  | opening => '<'
  | closing => '-'
  | tag => '<'

/-- The pattern behind the first character; a tag's name ends with one of some characters. -/
def others (ends : List Char) : Mark → Pattern
  | opening => .exactly "!--"
  | closing => .exactly "->"
  | tag => .inAnyCase "script" ++ [ends]

/-- Whether a mark stands at the start of a text. -/
def starts (ends : List Char) (mark : Mark) : List Char → Bool
  | [] => false
  | c :: rest => c == mark.first && (mark.others ends).fits rest

/-- The mark at the start of a text. -/
def at? (ends text : List Char) : Option Mark :=
  [opening, closing, tag].find? fun mark => mark.starts ends text

end Mark

/-- The marks in a text, in their order. -/
def marks (ends : List Char) : List Char → List Mark
  | [] => []
  | c :: rest => (Mark.at? ends (c :: rest)).toList ++ marks ends rest

/-- The marks that a page finds in a script. -/
abbrev scriptMarks (script : List Char) : List Mark := marks nameEnds script

/-- The marks in a text that stands in a JSON string, where a tab or the end of a line does not
stand for itself. -/
def textMarks (text : String) : List Mark := marks (nameEnds.filter isPlain) text.toList

/-- A tag between an opening and the next closing: a page passes over the next closing tag. -/
def EscapesTwice (marks : List Mark) : Prop :=
  ∃ before between after,
    marks = before ++ .opening :: (between ++ .tag :: after) ∧ .closing ∉ between

/-! ### Searching a text in parts -/

namespace Mark

theorem at?_eq_none
    {ends text : List Char} (nowhere : ∀ mark : Mark, mark.starts ends text = false) :
    at? ends text = none := by
  rw [at?, List.find?_eq_none]
  intro mark _
  rw [nowhere mark]
  exact Bool.false_ne_true

theorem at?_congr
    {ends otherEnds text other : List Char}
    (same : ∀ mark : Mark, mark.starts ends text = mark.starts otherEnds other) :
    at? ends text = at? otherEnds other := by
  rw [at?, at?]
  congr 1
  exact funext same

theorem starts_of_ne
    {c : Char} (notMarkup : c ≠ '<') (notHyphen : c ≠ '-') (ends rest : List Char) (mark : Mark) :
    mark.starts ends (c :: rest) = false := by
  cases mark <;> simp [starts, first, notMarkup, notHyphen]

end Mark

theorem marks_cons_of_ne
    {c : Char} (notMarkup : c ≠ '<') (notHyphen : c ≠ '-') (ends rest : List Char) :
    marks ends (c :: rest) = marks ends rest := by
  rw [marks, Mark.at?_eq_none (Mark.starts_of_ne notMarkup notHyphen ends rest)]
  rfl

/-- Text of a template: no mark starts in it. -/
def IsTemplate (text : List Char) : Prop := '<' ∉ text ∧ '-' ∉ text

instance (text : List Char) : Decidable (IsTemplate text) :=
  inferInstanceAs (Decidable ('<' ∉ text ∧ '-' ∉ text))

theorem marks_template_append
    {before : List Char} (template : IsTemplate before) (ends rest : List Char) :
    marks ends (before ++ rest) = marks ends rest := by
  induction before with
  | nil => rfl
  | cons c others induction =>
      obtain ⟨notMarkup, notHyphen⟩ := template
      rw [List.mem_cons, not_or] at notMarkup notHyphen
      rw [List.cons_append, marks_cons_of_ne (Ne.symm notMarkup.1) (Ne.symm notHyphen.1),
        induction ⟨notMarkup.2, notHyphen.2⟩]

/-- What may follow a value in a script: nothing that completes the end of a comment. -/
def IsBorder (rest : List Char) : Prop := rest.head? ≠ some '-' ∧ rest.head? ≠ some '>'

instance (rest : List Char) : Decidable (IsBorder rest) :=
  inferInstanceAs (Decidable (rest.head? ≠ some '-' ∧ rest.head? ≠ some '>'))

/-- Behind a hyphen no `->` stands in a text without `>`, nor where the text ends at a border. -/
theorem not_fits_closing
    {text rest : List Char} (notClosed : '>' ∉ text) (border : IsBorder rest) :
    (Pattern.exactly "->").fits (text ++ rest) = false := by
  have pattern : Pattern.exactly "->" = [['-'], ['>']] := by decide
  rw [pattern]
  match text, rest with
  | [], [] => rfl
  | [], c :: _ =>
      have notHyphen : c ≠ '-' := by simpa using border.1
      simp [Pattern.fits, notHyphen]
  | [_], [] => simp [Pattern.fits]
  | [_], c :: _ =>
      have notEnd : c ≠ '>' := by simpa using border.2
      simp [Pattern.fits, notEnd]
  | _ :: d :: _, _ =>
      have notEnd : d ≠ '>' := by
        rintro rfl
        simp at notClosed
      simp [Pattern.fits, notEnd]

/-- Numbers may hold hyphens, but no mark. -/
theorem marks_number_append
    {number rest : List Char} (notOpen : '<' ∉ number) (notClosed : '>' ∉ number)
    (border : IsBorder rest) (ends : List Char) :
    marks ends (number ++ rest) = marks ends rest := by
  induction number with
  | nil => rfl
  | cons c others induction =>
      rw [List.mem_cons, not_or] at notOpen notClosed
      have nowhere : ∀ mark : Mark, mark.starts ends (c :: (others ++ rest)) = false := by
        intro mark
        cases mark with
        | opening | tag => simp [Mark.starts, Mark.first, Ne.symm notOpen.1]
        | closing => simp [Mark.starts, Mark.others, not_fits_closing notClosed.2 border]
      rw [List.cons_append, marks, Mark.at?_eq_none nowhere, induction notOpen.2 notClosed.2]
      rfl

/-! ### Escapes of JSON texts -/

theorem Pattern.fits_escapeClosing
    {pattern : Pattern} (refuses : ∀ allowed ∈ pattern, '<' ∉ allowed) (text rest : List Char) :
    pattern.fits (escapeClosing text ++ rest) = pattern.fits (text ++ rest) := by
  induction pattern generalizing text with
  | nil => rfl
  | cons allowed others induction =>
      obtain ⟨here, later⟩ := List.forall_mem_cons.mp refuses
      cases text with
      | nil => rfl
      | cons c text =>
          by_cases markup : c = '<'
          · obtain ⟨escaped, whole⟩ := exists_escapeClosing_cons c text
            subst markup
            simp [whole, fits, here]
          · rw [escapeClosing_of_ne markup, List.cons_append, List.cons_append, fits, fits,
              induction later]

theorem Mark.others_refuse_markup (mark : Mark) :
    ∀ allowed ∈ mark.others nameEnds, '<' ∉ allowed := by
  cases mark <;> decide

theorem Mark.starts_markup_of_ne
    {c : Char} (apart : c ∉ ['!', '-', 's', 'S']) (rest : List Char) (mark : Mark) :
    mark.starts nameEnds ('<' :: c :: rest) = false := by
  have second : ∃ allowed more,
      mark.others nameEnds = allowed :: more ∧ allowed ⊆ ['!', '-', 's', 'S'] := by
    cases mark <;> exact ⟨_, _, rfl, by decide⟩
  obtain ⟨allowed, more, pattern, inside⟩ := second
  have refused : allowed.contains c = false := by
    rw [List.contains_eq_mem, decide_eq_false_iff_not]
    exact fun member => apart (inside member)
  rw [starts, pattern, Pattern.fits, refused, Bool.false_and, Bool.and_false]

/-- Breaking up `</` leaves the marks of a text as they are. -/
theorem scriptMarks_escapeClosing (text rest : List Char) :
    scriptMarks (escapeClosing text ++ rest) = scriptMarks (text ++ rest) := by
  fun_induction escapeClosing text with
  | case1 others induction =>
      -- No mark starts at this `<`, with or without the backslash.
      have unmarked {c : Char} (apart : c ∉ ['!', '-', 's', 'S']) (follows : List Char) :
          scriptMarks ('<' :: c :: follows) = scriptMarks (c :: follows) := by
        rw [scriptMarks, marks, Mark.at?_eq_none (Mark.starts_markup_of_ne apart follows)]
        rfl
      have template {c : Char} (plain : IsTemplate [c]) (follows : List Char) :
          scriptMarks (c :: follows) = scriptMarks follows :=
        marks_template_append plain nameEnds follows
      simp only [List.cons_append]
      rw [unmarked (by decide), unmarked (by decide), template (by decide), template (by decide),
        template (by decide), induction]
  | case2 c others whole induction =>
      have same (mark : Mark) :
          mark.starts nameEnds (c :: (escapeClosing others ++ rest)) =
            mark.starts nameEnds (c :: (others ++ rest)) := by
        rw [Mark.starts, Mark.starts, Pattern.fits_escapeClosing mark.others_refuse_markup]
      rw [List.cons_append, List.cons_append, scriptMarks, scriptMarks, marks, marks,
        Mark.at?_congr same]
      exact congrArg _ induction
  | case3 => rfl

/-! ### Texts in strings -/

theorem escapeChar_of_isPlain {c : Char} (plain : isPlain c = true) : Json.escapeChar c = [c] := by
  simp only [isPlain, Bool.and_eq_true, bne_iff_ne, decide_eq_true_eq] at plain
  obtain ⟨⟨quotation, backslash⟩, printable⟩ := plain
  have notNewline : c ≠ '\n' := by rintro rfl; revert printable; decide
  have notReturn : c ≠ '\r' := by rintro rfl; revert printable; decide
  have notTab : c ≠ '\t' := by rintro rfl; revert printable; decide
  rw [Json.escapeChar, if_neg quotation, if_neg backslash, if_neg notNewline, if_neg notReturn,
    if_neg notTab, if_neg (by omega), if_neg (by omega), if_neg (by omega)]

/-- What does not stand for itself is spelled with a backslash and letters or digits. -/
theorem escapeChar_of_not_isPlain {c : Char} (special : isPlain c = false) :
    IsTemplate (Json.escapeChar c) ∧ (Json.escapeChar c).head? = some '\\' := by
  by_cases control : c.toNat < 32
  · -- The control characters are few enough to be looked at one by one.
    have all : ∀ code < 32, IsTemplate (Json.escapeChar (Char.ofNat code)) ∧
        (Json.escapeChar (Char.ofNat code)).head? = some '\\' := by decide
    have escaped := all c.toNat control
    rwa [Char.ofNat_toNat] at escaped
  · simp only [isPlain, Bool.and_eq_false_iff, bne_eq_false_iff_eq,
      decide_eq_false_iff_not] at special
    rcases special with (rfl | rfl) | unprintable
    · decide
    · decide
    · exact absurd (Nat.le_of_not_lt control) unprintable

/-- The characters of a pattern that stand for themselves in a string. -/
def Pattern.shown (pattern : Pattern) : Pattern := pattern.map (·.filter isPlain)

/-- In a string a pattern has to fit with characters that stand for themselves, before the end of
the string. -/
theorem Pattern.fits_escaped
    {pattern : Pattern} (refuses : ∀ allowed ∈ pattern, '"' ∉ allowed ∧ '\\' ∉ allowed)
    (text rest : List Char) :
    pattern.fits (text.flatMap Json.escapeChar ++ '"' :: rest) = pattern.shown.fits text := by
  induction pattern generalizing text with
  | nil => rfl
  | cons allowed others induction =>
      obtain ⟨⟨noQuotation, noBackslash⟩, later⟩ := List.forall_mem_cons.mp refuses
      cases text with
      | nil => simp [fits, shown, noQuotation]
      | cons c text =>
          cases plain : isPlain c with
          | true =>
              have here : (allowed.filter isPlain).contains c = allowed.contains c := by
                simp [List.mem_filter, plain]
              rw [List.flatMap_cons, escapeChar_of_isPlain plain]
              simp only [List.cons_append, List.nil_append, fits, shown, List.map_cons, here]
              rw [induction later, shown]
          | false =>
              have escape := (escapeChar_of_not_isPlain plain).2
              obtain ⟨letters, spelled⟩ := List.head?_eq_some_iff.mp escape
              simp [List.flatMap_cons, spelled, fits, shown, noBackslash, plain]

theorem Mark.others_refuse_escapes (mark : Mark) :
    ∀ allowed ∈ mark.others nameEnds, '"' ∉ allowed ∧ '\\' ∉ allowed := by
  cases mark <;> decide

theorem Mark.shown_others (mark : Mark) :
    (mark.others nameEnds).shown = mark.others (nameEnds.filter isPlain) := by
  cases mark <;> decide

/-- A string shows the marks of its text. -/
theorem scriptMarks_escaped (text rest : List Char) :
    scriptMarks (text.flatMap Json.escapeChar ++ '"' :: rest) =
      marks (nameEnds.filter isPlain) text ++ scriptMarks rest := by
  induction text with
  | nil => exact marks_cons_of_ne (by decide) (by decide) nameEnds rest
  | cons c text induction =>
      rw [List.flatMap_cons, List.append_assoc]
      cases plain : isPlain c with
      | true =>
          have same (mark : Mark) :
              mark.starts nameEnds (c :: (text.flatMap Json.escapeChar ++ '"' :: rest)) =
                mark.starts (nameEnds.filter isPlain) (c :: text) := by
            rw [Mark.starts, Mark.starts, Pattern.fits_escaped mark.others_refuse_escapes,
              Mark.shown_others]
          rw [escapeChar_of_isPlain plain, List.singleton_append, scriptMarks, marks, marks,
            Mark.at?_congr same, List.append_assoc]
          exact congrArg _ induction
      | false =>
          have notMarkup : c ≠ '<' := by rintro rfl; cases plain
          have notHyphen : c ≠ '-' := by rintro rfl; cases plain
          rw [scriptMarks, marks_template_append (escapeChar_of_not_isPlain plain).1,
            marks_cons_of_ne notMarkup notHyphen]
          exact induction

/-- A tab is written with a backslash, after which the name of a tag goes on. -/
example : textMarks "<!--> <SCRIPT> <script\t>" = [.opening, .closing, .tag] := by decide

/-! ### Values -/

/-- Text that adds marks to a script, whatever comes before it or after it. -/
def Contributes (text : List Char) (found : List Mark) : Prop :=
  ∀ rest, IsBorder rest → scriptMarks (text ++ rest) = found ++ scriptMarks rest

namespace Contributes

variable {text after : List Char} {found later : List Mark}

theorem of_template (template : IsTemplate text) : Contributes text [] := by
  intro rest _
  exact marks_template_append template nameEnds rest

theorem of_number (numeric : text.all Decimal.isNumberChar = true) : Contributes text [] := by
  have absent {c : Char} (other : Decimal.isNumberChar c = false) : c ∉ text := by
    intro member
    rw [List.all_eq_true.mp numeric c member] at other
    cases other
  intro rest border
  exact marks_number_append (absent rfl) (absent rfl) border nameEnds

theorem after_template {before : List Char} (template : IsTemplate before)
    (contributes : Contributes text found) : Contributes (before ++ text) found := by
  intro rest border
  rw [List.append_assoc, scriptMarks, marks_template_append template]
  exact contributes rest border

theorem cons {c : Char} (template : IsTemplate [c]) (contributes : Contributes text found) :
    Contributes (c :: text) found :=
  after_template template contributes

/-- The next text must not begin as the end of a comment goes on. -/
theorem append (contributes : Contributes text found) (next : Contributes after later)
    (border : IsBorder after) : Contributes (text ++ after) (found ++ later) := by
  intro rest follows
  have reaches : IsBorder (after ++ rest) := by
    cases after with
    | nil => exact follows
    | cons c others => exact border
  rw [List.append_assoc, contributes _ reaches, next rest follows, List.append_assoc]

theorem append_cons (contributes : Contributes text found) {c : Char} (border : IsBorder [c])
    (next : Contributes (c :: after) later) : Contributes (text ++ c :: after) (found ++ later) :=
  contributes.append next border

theorem before_template (contributes : Contributes text found) (template : IsTemplate after)
    (border : IsBorder after) : Contributes (text ++ after) found := by
  have whole := contributes.append (of_template template) border
  rwa [List.append_nil] at whole

/-- Two texts with a separator between them. -/
theorem separated {separator : List Char} (contributes : Contributes text found)
    (template : IsTemplate separator) (border : IsBorder separator) (nonempty : separator ≠ [])
    (next : Contributes after later) :
    Contributes (text ++ (separator ++ after)) (found ++ later) := by
  obtain ⟨c, others, rfl⟩ := List.exists_cons_of_ne_nil nonempty
  exact contributes.append_cons border (next.after_template template)

end Contributes

namespace Json

mutual

/-- The strings of a value, in their order, the keys of objects among them. -/
def strings : Json → List String
  | .null => []
  | .bool _ => []
  | .num _ => []
  | .str value => [value]
  | .arr items => stringsOfItems items
  | .obj members => stringsOfMembers members

def stringsOfItems : List Json → List String
  | [] => []
  | item :: rest => strings item ++ stringsOfItems rest

def stringsOfMembers : List (String × Json) → List String
  | [] => []
  | (key, value) :: rest => key :: (strings value ++ stringsOfMembers rest)

end

theorem contributes_number (number : Number) : Contributes number.render [] := by
  cases number with
  | int value =>
      have digits := Decimal.all_isNumberChar_digitsOf value.natAbs
      rw [Number.render]
      split
      · exact .of_number (by rw [List.all_cons, digits]; rfl)
      · exact .of_number digits
  | real x =>
      rw [Number.render]
      split
      · exact .of_number (Decimal.Layout.all_isNumberChar_render rfl rfl x)
      · exact .of_template (by decide)

theorem contributes_quote (text : String) :
    Contributes (quote text.toList) (textMarks text) := by
  intro rest _
  rw [quote, List.cons_append, List.append_assoc, scriptMarks,
    marks_cons_of_ne (by decide) (by decide)]
  exact scriptMarks_escaped text.toList rest

mutual

/-- A value adds the marks of its strings. -/
theorem contributes_render : (value : Json) →
    Contributes value.render (value.strings.flatMap textMarks)
  | .null => .of_template (by decide)
  | .bool true => .of_template (by decide)
  | .bool false => .of_template (by decide)
  | .num number => contributes_number number
  | .str text => by
      simp only [render, strings, List.flatMap_cons, List.flatMap_nil, List.append_nil]
      exact contributes_quote text
  | .arr items =>
      have inner := contributes_renderItems items
      .cons (by decide) (inner.before_template (by decide) (by decide))
  | .obj members =>
      have inner := contributes_renderMembers members
      .cons (by decide) (inner.before_template (by decide) (by decide))

theorem contributes_renderItems : (items : List Json) →
    Contributes (renderItems items) ((stringsOfItems items).flatMap textMarks)
  | [] => .of_template (by decide)
  | [item] => by
      rw [renderItems, stringsOfItems, stringsOfItems, List.append_nil]
      exact contributes_render item
  | item :: next :: others => by
      have text : renderItems (item :: next :: others) =
          item.render ++ ',' :: renderItems (next :: others) := rfl
      rw [text, stringsOfItems, List.flatMap_append]
      have later := contributes_renderItems (next :: others)
      exact (contributes_render item).append_cons (by decide) (later.cons (by decide))

theorem contributes_renderMembers : (members : List (String × Json)) →
    Contributes (renderMembers members) ((stringsOfMembers members).flatMap textMarks)
  | [] => .of_template (by decide)
  | [(key, value)] => by
      rw [renderMembers, stringsOfMembers, stringsOfMembers, List.append_nil, List.flatMap_cons]
      exact (contributes_quote key).append_cons (by decide)
        ((contributes_render value).cons (by decide))
  | (key, value) :: next :: others => by
      have text : renderMembers ((key, value) :: next :: others) =
          quote key.toList ++ ':' :: (value.render ++ ',' :: renderMembers (next :: others)) := rfl
      rw [text, stringsOfMembers, List.flatMap_cons, List.flatMap_append]
      have later := contributes_renderMembers (next :: others)
      have member : Contributes (value.render ++ ',' :: renderMembers (next :: others)) _ :=
        (contributes_render value).append_cons (by decide) (later.cons (by decide))
      exact (contributes_quote key).append_cons (by decide) (member.cons (by decide))

end

end Json

/-! ### Lines of scripts -/

/-- The strings in a literal. -/
def literalTexts (value? : Option Json) : List String := value?.elim [] Json.strings

theorem contributes_scriptLiteral (value? : Option Json) :
    Contributes (scriptLiteral value?).toList ((literalTexts value?).flatMap textMarks) := by
  cases value? with
  | none => exact .of_template (by decide)
  | some value =>
      intro rest border
      rw [scriptLiteral, String.toList_ofList, scriptMarks_escapeClosing]
      exact value.contributes_render rest border

theorem contributes_lines
    {lines : List String} {found : List (List Mark)}
    (each : List.Forall₂ (fun line marks => Contributes line.toList marks) lines found) :
    Contributes ("\n".intercalate lines).toList found.flatten := by
  induction each with
  | nil => exact .of_template (by decide)
  | @cons line marks lines others first rest induction =>
      cases rest with
      | nil => simpa using first
      | @cons next _ _ _ _ _ =>
          have newline : "\n".toList = ['\n'] := by decide
          rw [String.intercalate_cons_cons, String.append_assoc, String.toList_append,
            String.toList_append, newline, List.flatten_cons]
          exact first.append_cons (by decide) (induction.cons (by decide))

namespace Map.Spec

/-- A script between its tags. -/
def scriptBody (lines : List String) : String := "\n" ++ "\n".intercalate lines ++ "\n"

theorem intercalate_script {lines : List String} (nonempty : lines ≠ []) :
    "\n".intercalate (scriptOpening :: (lines ++ [scriptClosing])) =
      scriptOpening ++ scriptBody lines ++ scriptClosing := by
  rw [String.intercalate_cons_of_ne_nil (by simp),
    String.intercalate_append_of_ne_nil nonempty (by simp), String.intercalate_singleton,
    scriptBody]
  simp only [String.append_assoc]

theorem scriptMarks_scriptBody
    {lines : List String} {found : List (List Mark)}
    (each : List.Forall₂ (fun line marks => Contributes line.toList marks) lines found) :
    scriptMarks (scriptBody lines).toList = found.flatten := by
  have newline : "\n".toList = ['\n'] := by decide
  have last : scriptMarks ['\n'] = [] := by decide
  have searched := contributes_lines each ['\n'] (by decide)
  rw [last, List.append_nil] at searched
  rw [scriptBody, String.toList_append, String.toList_append, newline, List.append_assoc]
  exact (marks_template_append (by decide) nameEnds _).trans searched

theorem contributes_entryLines
    {entries : List (String × String)} {found : List (List Mark)}
    (each : List.Forall₂
      (fun entry marks => IsTemplate entry.1.toList ∧ Contributes entry.2.toList marks)
      entries found) :
    List.Forall₂ (fun line marks => Contributes line.toList marks) (entryLines entries) found := by
  have margin {key literal : String} {marks : List Mark} (template : IsTemplate key.toList)
      (contributes : Contributes literal.toList marks) :
      Contributes ("    " ++ key ++ ": " ++ literal).toList marks := by
    have plain : IsTemplate ("    " ++ key ++ ": ").toList := by
      obtain ⟨notMarkup, notHyphen⟩ := template
      constructor
      · simp only [String.toList_append, List.mem_append, notMarkup]
        decide
      · simp only [String.toList_append, List.mem_append, notHyphen]
        decide
    rw [String.toList_append]
    exact contributes.after_template plain
  fun_induction entryLines entries generalizing found with
  | case1 =>
      cases each
      exact .nil
  | case2 key literal =>
      obtain ⟨marks, others, ⟨template, contributes⟩, none, rfl⟩ :=
        List.forall₂_cons_left_iff.mp each
      rw [List.forall₂_nil_left_iff.mp none]
      exact .cons (margin template contributes) .nil
  | case3 key literal rest nonempty induction =>
      obtain ⟨marks, others, ⟨template, contributes⟩, later, rfl⟩ :=
        List.forall₂_cons_left_iff.mp each
      have comma : ",".toList = [','] := by decide
      refine .cons ?_ (induction later)
      rw [String.toList_append, comma]
      exact (margin template contributes).before_template (by decide) (by decide)

/-- The strings that the first script repeats. -/
def repeatedTexts (spec : Spec) : List String :=
  spec.fields.flatMap fun field => literalTexts field.2

/-- The strings that stand in the second script. -/
def drawnTexts (spec : Spec) : List String := spec.elementId :: spec.images.toList

theorem scriptMarks_info (spec : Spec) :
    scriptMarks (scriptBody spec.infoLines.tail).toList = spec.repeatedTexts.flatMap textMarks := by
  have names : ∀ name ∈ fieldNames, IsTemplate name.toList := by decide
  have each : List.Forall₂
      (fun entry marks => IsTemplate entry.1.toList ∧ Contributes entry.2.toList marks)
      spec.entries (spec.fields.map fun field => (literalTexts field.2).flatMap textMarks) := by
    rw [entries_eq, List.forall₂_map_left_iff, List.forall₂_map_right_iff, List.forall₂_same]
    intro field member
    exact ⟨names field.1 (List.mem_map_of_mem (f := Prod.fst) member),
      contributes_scriptLiteral field.2⟩
  have opening : Contributes "var obsidianInfo = \x7b".toList [] := .of_template (by decide)
  have page : List.Forall₂ (fun line marks => Contributes line.toList marks)
      ("\x7d;" :: pageLines) [[], [], []] :=
    .cons (.of_template (by decide)) <| .cons (.of_template (by decide)) <|
      .cons (.of_template (by decide)) .nil
  have searched := scriptMarks_scriptBody
    (.cons opening (List.rel_append (contributes_entryLines each) page))
  simp only [List.flatten_cons, List.flatten_append, List.flatten_nil, List.nil_append,
    List.append_nil] at searched
  rw [infoLines, List.tail_cons, searched, repeatedTexts, ← List.flatMap_def,
    List.flatMap_assoc]

theorem contributes_scriptNumber (x : Float) : Contributes (scriptNumber x).toList [] :=
  .of_number (Decimal.Layout.all_isNumberChar_render rfl rfl x)

theorem contributes_centerLine (spec : Spec) (scale : Scale) :
    Contributes (spec.centerLine scale).toList [] := by
  unfold centerLine
  simp only [String.append_assoc, String.toList_append]
  have second (x : Float) : Contributes ((scriptNumber x).toList ++ "],".toList) [] :=
    (contributes_scriptNumber x).before_template (by decide) (by decide)
  exact .after_template (by decide)
    ((contributes_scriptNumber _).separated (by decide) (by decide) (by decide) (second _))

theorem contributes_zoomLine (spec : Spec) (scale : Scale) :
    Contributes (spec.zoomLine scale).toList [] := by
  rw [zoomLine, String.toList_append]
  exact .after_template (by decide) (contributes_scriptNumber _)

theorem contributes_corners (south west north east : Float) :
    Contributes ("[[" ++ scriptNumber south ++ "," ++ scriptNumber west ++ "],[" ++
      scriptNumber north ++ ", " ++ scriptNumber east ++ "]]").toList [] := by
  have separated (x : Float) {separator : String} {after : List Char}
      (template : IsTemplate separator.toList) (border : IsBorder separator.toList)
      (nonempty : separator.toList ≠ []) (next : Contributes after []) :
      Contributes ((scriptNumber x).toList ++ (separator.toList ++ after)) [] :=
    (contributes_scriptNumber x).separated template border nonempty next
  have last : Contributes ((scriptNumber east).toList ++ "]]".toList) [] :=
    (contributes_scriptNumber east).before_template (by decide) (by decide)
  simp only [String.append_assoc, String.toList_append]
  exact .after_template (by decide) <|
    separated south (by decide) (by decide) (by decide) <|
    separated west (by decide) (by decide) (by decide) <|
    separated north (by decide) (by decide) (by decide) last

theorem contributes_imageBounds (spec : Spec) (scale : Scale) :
    Contributes (spec.imageBounds scale).toList [] := by
  unfold imageBounds
  split
  · exact .of_template (by decide)
  · exact contributes_corners _ _ _ _

theorem contributes_textLiteral (text : String) :
    Contributes (scriptLiteral (some (.str text))).toList (textMarks text) := by
  have literal := contributes_scriptLiteral (some (.str text))
  simpa [literalTexts, Json.strings] using literal

/-- The marks of each line that puts the image on the map. -/
def imageMarks (spec : Spec) : List (List Mark) :=
  match spec.images with
  | none => []
  | some path => [textMarks path, [], []]

theorem contributes_imageLines (spec : Spec) (scale : Scale) :
    List.Forall₂ (fun line marks => Contributes line.toList marks)
      (spec.imageLines scale) spec.imageMarks := by
  cases given : spec.images with
  | none =>
      rw [imageLines, imageMarks, given]
      exact .nil
  | some path =>
      have address :
          Contributes ("var imageUrl = " ++ scriptLiteral (some (.str path)) ++ ",").toList
            (textMarks path) := by
        simp only [String.append_assoc, String.toList_append]
        exact .after_template (by decide)
          ((contributes_textLiteral path).before_template (by decide) (by decide))
      have corners :
          Contributes ("    imageBounds = " ++ spec.imageBounds scale ++ ";").toList [] := by
        simp only [String.append_assoc, String.toList_append]
        exact .after_template (by decide)
          ((spec.contributes_imageBounds scale).before_template (by decide) (by decide))
      have overlay : Contributes "L.imageOverlay(imageUrl, imageBounds).addTo(map);".toList [] :=
        .of_template (by decide)
      rw [imageLines, imageMarks, given]
      exact .cons address (.cons corners (.cons overlay .nil))

theorem scriptMarks_drawing (spec : Spec) (scale : Scale) :
    scriptMarks (scriptBody (spec.drawingLines scale).tail).toList =
      spec.drawnTexts.flatMap textMarks := by
  have target : Contributes spec.targetLine.toList (textMarks spec.elementId) := by
    unfold targetLine
    simp only [String.append_assoc, String.toList_append]
    exact .after_template (by decide)
      ((contributes_textLiteral _).before_template (by decide) (by decide))
  have drawn : Contributes "\x7d);".toList [] := .of_template (by decide)
  have searched := scriptMarks_scriptBody <|
    .cons target <| .cons (spec.contributes_centerLine scale) <|
      .cons (spec.contributes_zoomLine scale) <| .cons drawn (spec.contributes_imageLines scale)
  have images : spec.imageMarks.flatten = spec.images.toList.flatMap textMarks := by
    unfold imageMarks
    cases spec.images <;> simp
  rw [drawingLines, List.tail_cons, searched, drawnTexts, List.flatMap_cons, ← images]
  rfl

/-! ### Closing tags -/

theorem newline_append (text : String) : ("\n" ++ text).toList = '\n' :: text.toList := by
  have newline : "\n".toList = ['\n'] := by decide
  rw [String.toList_append, newline]
  rfl

theorem closings_script (lines : List String) :
    closings (scriptOpening ++ scriptBody lines ++ scriptClosing).toList =
      closings (scriptBody lines).toList + 1 := by
  have opening : closings scriptOpening.toList = 0 := by decide
  have closing : closings scriptClosing.toList = 1 := by decide
  have border : ((scriptBody lines).toList ++ scriptClosing.toList).head? ≠ some '/' := by
    rw [scriptBody, String.append_assoc, newline_append]
    exact of_decide_eq_true rfl
  rw [String.toList_append, String.toList_append, List.append_assoc, closings_append _ border,
    closings_append _ (by decide), opening, closing, Nat.zero_add]

/-- The first script between its tags. -/
def infoBody (spec : Spec) : String := scriptBody spec.infoLines.tail

/-- The second script between its tags. -/
def drawingBody (spec : Spec) (scale : Scale) : String := scriptBody (spec.drawingLines scale).tail

theorem container_eq_script (spec : Spec) :
    spec.container = spec.element ++ "\n" ++ (scriptOpening ++ spec.infoBody ++ scriptClosing) := by
  have nonempty : spec.infoLines.tail ≠ [] := by simp [infoLines]
  rw [infoBody, ← intercalate_script nonempty, container_eq,
    String.intercalate_cons_of_ne_nil (by simp)]
  rfl

theorem initScript_eq_script (spec : Spec) (scale : Scale) :
    spec.initScript scale = scriptOpening ++ spec.drawingBody scale ++ scriptClosing := by
  have nonempty : (spec.drawingLines scale).tail ≠ [] := by simp [drawingLines]
  rw [drawingBody, ← intercalate_script nonempty, initScript_eq]
  rfl

theorem closings_infoBody (spec : Spec) : closings spec.infoBody.toList = 0 := by
  have border :
      ("\n" ++ (scriptOpening ++ spec.infoBody ++ scriptClosing)).toList.head? ≠ some '/' := by
    rw [newline_append]
    exact of_decide_eq_true rfl
  have total := spec.closings_container
  rw [container_eq_script, String.append_assoc, String.toList_append, closings_append _ border,
    closings_element, String.toList_append, closings_append_of_not_mem (by decide), infoBody,
    closings_script] at total
  rw [infoBody]
  omega

theorem closings_drawingBody (spec : Spec) (scale : Scale) :
    closings (spec.drawingBody scale).toList = 0 := by
  have total := spec.closings_initScript scale
  rw [initScript_eq_script, drawingBody, closings_script] at total
  rw [drawingBody]
  omega

/-- Each script holds no closing tag but its own, and a page passes over that one only if the
strings in the script, one after the other, have it escape twice. -/
theorem escapes_come_from_texts (spec : Spec) (scale : Scale) :
    (∃ body,
      spec.container = spec.element ++ "\n" ++ (scriptOpening ++ body ++ scriptClosing) ∧
      closings body.toList = 0 ∧
      (EscapesTwice (scriptMarks body.toList) ↔
        EscapesTwice (spec.repeatedTexts.flatMap textMarks))) ∧
    ∃ body,
      spec.initScript scale = scriptOpening ++ body ++ scriptClosing ∧
      closings body.toList = 0 ∧
      (EscapesTwice (scriptMarks body.toList) ↔
        EscapesTwice (spec.drawnTexts.flatMap textMarks)) := by
  constructor
  · exact ⟨spec.infoBody, spec.container_eq_script, spec.closings_infoBody,
      by rw [infoBody, scriptMarks_info]⟩
  · exact ⟨spec.drawingBody scale, spec.initScript_eq_script scale,
      spec.closings_drawingBody scale, by rw [drawingBody, scriptMarks_drawing]⟩

/-- A map whose identifier looks like a script in a comment hides the end of both its scripts. -/
theorem identifier_escapes_twice :
    let spec : Spec := { default with id := some "<!--<script>" }
    let scale : Scale := ⟨1000, -1.5, 1000⟩
    ∃ info drawing,
      spec.container = spec.element ++ "\n" ++ (scriptOpening ++ info ++ scriptClosing) ∧
      spec.initScript scale = scriptOpening ++ drawing ++ scriptClosing ∧
      EscapesTwice (scriptMarks info.toList) ∧ EscapesTwice (scriptMarks drawing.toList) := by
  intro spec scale
  have escapes : EscapesTwice [.opening, .tag] := ⟨[], [], [], rfl, List.not_mem_nil⟩
  refine ⟨spec.infoBody, spec.drawingBody scale, spec.container_eq_script,
    spec.initScript_eq_script scale, ?_, ?_⟩
  · have found : spec.repeatedTexts.flatMap textMarks = [.opening, .tag] := by decide
    rwa [infoBody, scriptMarks_info, found]
  · have found : spec.drawnTexts.flatMap textMarks = [.opening, .tag] := by decide
    rwa [drawingBody, scriptMarks_drawing, found]

end Map.Spec

end MapBlocks
