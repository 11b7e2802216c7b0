import MapBlocks.Proofs.JsonStrings
import MapBlocks.Proofs.JsonTokens
import MapBlocks.Proofs.NumberCharacters
import MapBlocks.Render

/-!
# JSON literals in scripts

In a script each `</` of a JSON text is broken up by a backslash.  A slash may be
escaped in a string and stands nowhere else in a JSON text, so the text reads as
it did before: token by token, and each string piece by piece.
-/

namespace MapBlocks

open Json

theorem exists_escapeClosing_cons (c : Char) (rest : List Char) :
    ∃ others, escapeClosing (c :: rest) = c :: others :=
  List.head?_eq_some_iff.mp (head?_escapeClosing (c :: rest))

theorem takeDigits_escapeClosing (text : List Char) :
    takeDigits (escapeClosing text) = (takeDigits text).map id escapeClosing := by
  induction text with
  | nil => rfl
  | cons c rest induction =>
      cases digit : Decimal.isDigitOf 10 c with
      | true =>
          have other : c ≠ '<' := by
            rintro rfl
            cases digit
          simp only [takeDigits, Prod.map, Prod.mk.injEq] at induction
          simp only [escapeClosing_of_ne other, takeDigits, List.takeWhile_cons,
            List.dropWhile_cons, digit, if_true, induction, Prod.map, id]
      | false =>
          obtain ⟨others, escaped⟩ := exists_escapeClosing_cons c rest
          simp [takeDigits, escaped, digit]

theorem takeMinus_escapeClosing (text : List Char) :
    takeMinus (escapeClosing text) = (takeMinus text).map id escapeClosing := by
  cases text with
  | nil => rfl
  | cons c rest =>
      by_cases minus : c = '-'
      · subst c
        rw [escapeClosing_of_ne (by decide)]
        rfl
      · obtain ⟨others, escaped⟩ := exists_escapeClosing_cons c rest
        rw [takeMinus_of_ne minus, Prod.map, escaped, takeMinus_of_ne minus]
        rfl

theorem takeSign_escapeClosing (text : List Char) :
    Decimal.takeSign (escapeClosing text) = (Decimal.takeSign text).map id escapeClosing := by
  cases text with
  | nil => rfl
  | cons c rest =>
      by_cases minus : c = '-'
      · subst c
        rw [escapeClosing_of_ne (by decide)]
        rfl
      by_cases plus : c = '+'
      · subst c
        rw [escapeClosing_of_ne (by decide)]
        rfl
      obtain ⟨others, escaped⟩ := exists_escapeClosing_cons c rest
      rw [takeSign_of_ne minus plus, Prod.map, escaped, takeSign_of_ne minus plus]
      rfl

theorem fractionPart?_escapeClosing (text : List Char) :
    fractionPart? (escapeClosing text) =
      (fractionPart? text).map (Prod.map id escapeClosing) := by
  cases text with
  | nil => rfl
  | cons c rest =>
      by_cases point : c = '.'
      · subst c
        rw [escapeClosing_of_ne (by decide)]
        simp only [fractionPart?, takeDigits_escapeClosing, Prod.map, id]
        split <;> rfl
      · obtain ⟨others, escaped⟩ := exists_escapeClosing_cons c rest
        rw [fractionPart?_of_ne point, Option.map_some, Prod.map, escaped,
          fractionPart?_of_ne point]
        rfl

theorem exponentPart?_escapeClosing (text : List Char) :
    exponentPart? (escapeClosing text) =
      (exponentPart? text).map (Prod.map id escapeClosing) := by
  cases text with
  | nil => rfl
  | cons c rest =>
      by_cases mark : c = 'e' ∨ c = 'E'
      · have other : c ≠ '<' := by
          rintro rfl
          revert mark
          decide
        rw [escapeClosing_of_ne other]
        simp only [exponentPart?, if_pos mark, takeSign_escapeClosing, takeDigits_escapeClosing,
          Prod.map, id]
        split <;> rfl
      · obtain ⟨others, escaped⟩ := exists_escapeClosing_cons c rest
        simp only [escaped, exponentPart?, if_neg mark, Option.map_some, Prod.map, id]

theorem numeral?_escapeClosing (text : List Char) :
    numeral? (escapeClosing text) = (numeral? text).map (Prod.map id escapeClosing) := by
  simp only [numeral?, takeMinus_escapeClosing, takeDigits_escapeClosing, Prod.map, id]
  split
  · rw [fractionPart?_escapeClosing]
    cases fractionPart? (takeDigits (takeMinus text).2).2 with
    | none => rfl
    | some fraction =>
        simp only [Option.map_some, Prod.map, id, Option.bind_eq_bind, Option.bind_some]
        rw [exponentPart?_escapeClosing]
        cases exponentPart? fraction.2 <;> rfl
  · rfl

theorem isDigitOf_of_natural?
    {radix value : Nat} {text : List Char}
    (read : Decimal.natural? radix text = some value) :
    ∀ c ∈ text, Decimal.isDigitOf radix c = true := by
  unfold Decimal.natural? at read
  split at read
  · cases read
  · rename_i digits
    simp only [Bool.or_eq_true, Bool.not_eq_true', not_or, Bool.not_eq_false] at digits
    exact List.all_eq_true.mp digits.2

/-- In a string a slash reads the same with a backslash before it. -/
theorem pieces?_slash (rest : List Char) :
    pieces? ('\\' :: '/' :: rest) = pieces? ('/' :: rest) := by
  rw [pieces?_of_letter rfl, pieces?_of_ordinary (by decide) (by decide) (by decide)]

theorem escapeClosing_of_unit
    {a b c d : Char} {code : Nat} (unit : unitOf? a b c d = some code) (rest : List Char) :
    escapeClosing ('\\' :: 'u' :: a :: b :: c :: d :: rest) =
      '\\' :: 'u' :: a :: b :: c :: d :: escapeClosing rest := by
  have digits : ∀ x ∈ [a, b, c, d], x ≠ '<' := by
    intro x member same
    have digit := isDigitOf_of_natural? unit x member
    rw [same] at digit
    cases digit
  simp only [List.mem_cons, List.not_mem_nil, or_false, forall_eq_or_imp, forall_eq] at digits
  obtain ⟨notA, notB, notC, notD⟩ := digits
  rw [escapeClosing_of_ne (by decide), escapeClosing_of_ne (by decide),
    escapeClosing_of_ne notA, escapeClosing_of_ne notB, escapeClosing_of_ne notC,
    escapeClosing_of_ne notD]

/-- Where a backslash is put in, the slash after it is still a piece of its own. -/
theorem pieces?_escapeClosing_cons
    {c : Char} (quotation : c ≠ '"') (backslash : c ≠ '\\') (printable : 32 ≤ c.toNat)
    (rest : List Char) :
    pieces? (escapeClosing (c :: rest)) =
      (pieces? (escapeClosing rest)).map (Prod.map (Piece.char c :: ·) id) := by
  have plain := pieces?_of_ordinary quotation backslash printable
  by_cases closing : c = '<' ∧ ∃ others, rest = '/' :: others
  · obtain ⟨rfl, others, rfl⟩ := closing
    rw [escapeClosing, plain, pieces?_slash, escapeClosing_of_ne (by decide)]
  · have kept : escapeClosing (c :: rest) = c :: escapeClosing rest := by
      rw [escapeClosing.eq_def]
      split <;> simp_all
    rw [kept, plain]

theorem pieces?_escapeClosing
    {text tail : List Char} {pieces : List Piece} (read : pieces? text = some (pieces, tail)) :
    pieces? (escapeClosing text) = some (pieces, escapeClosing tail) := by
  fun_induction pieces? text generalizing pieces tail with
  | case1 => cases read
  | case2 rest =>
      cases read
      rw [escapeClosing_of_ne (by decide)]
      rfl
  | case3 a b c d rest induction =>
      simp only [Option.bind_eq_bind, Option.bind_eq_some_iff, Option.some.injEq,
        Prod.mk.injEq, Prod.exists] at read
      obtain ⟨code, unit, inner, innerTail, found, rfl, rfl⟩ := read
      rw [escapeClosing_of_unit unit, pieces?_of_unit unit, induction found]
      rfl
  | case4 letter rest notUnit induction =>
      simp only [Option.bind_eq_bind, Option.bind_eq_some_iff, Option.some.injEq,
        Prod.mk.injEq, Prod.exists] at read
      obtain ⟨plain, escape, inner, innerTail, found, rfl, rfl⟩ := read
      have other : letter ≠ '<' := by
        rintro rfl
        cases escape
      rw [escapeClosing_of_ne (by decide), escapeClosing_of_ne other, pieces?_of_letter escape,
        induction found]
      rfl
  | case5 => cases read
  | case6 c rest quotation notUnit notLetter ordinary induction =>
      simp only [Option.bind_eq_bind, Option.bind_eq_some_iff, Option.some.injEq,
        Prod.mk.injEq, Prod.exists] at read
      obtain ⟨inner, innerTail, found, rfl, rfl⟩ := read
      rw [not_or, Nat.not_lt] at ordinary
      rw [pieces?_escapeClosing_cons quotation ordinary.2 ordinary.1, induction found]
      rfl

theorem token?_escapeClosing
    {text tail : List Char} {token : Token} (read : token? text = some (token, tail)) :
    token? (escapeClosing text) = some (token, escapeClosing tail) := by
  unfold token? at read
  split at read
  case h_7 rest =>
    simp only [Option.map_eq_some_iff, Prod.mk.injEq, Prod.exists] at read
    obtain ⟨pieces, stringTail, found, rfl, rfl⟩ := read
    rw [escapeClosing_of_ne (by decide), token?, pieces?_escapeClosing found]
    rfl
  case h_11 =>
    simp only [Option.map_eq_some_iff, Prod.mk.injEq, Prod.exists] at read
    obtain ⟨numeral, numberTail, found, rfl, rfl⟩ := read
    apply token?_of_numeral?
    rw [numeral?_escapeClosing, found]
    rfl
  all_goals
    cases read
    simp (disch := decide) only [escapeClosing_of_ne]
    rfl

theorem tokens?_escapeClosing
    {text : List Char} {tokens : List Token} (read : tokens? text = some tokens) :
    tokens? (escapeClosing text) = some tokens := by
  fun_induction tokens? text generalizing tokens with
  | case1 =>
      rw [escapeClosing, tokens?]
      exact read
  | case2 c rest blank induction =>
      have other : c ≠ '<' := by
        rintro rfl
        cases blank
      rw [escapeClosing_of_ne other, tokens?_of_blank blank]
      exact induction read
  | case3 => cases read
  | case4 c rest visible token tail found induction =>
      obtain ⟨others, inner, rfl⟩ := Option.map_eq_some_iff.mp read
      rw [tokens?_of_token? (token?_escapeClosing found), induction inner]
      rfl

/-- A literal reads as the value that it was written for reads. -/
theorem parse?_scriptLiteral
    {value : Json} {tree : Written} (reads : Written.parse? value.render = some tree) :
    Written.parse? (scriptLiteral (some value)).toList = some tree := by
  obtain ⟨tokens, found, spelled⟩ := Option.bind_eq_some_iff.mp reads
  rw [Written.parse?, scriptLiteral, String.toList_ofList, tokens?_escapeClosing found]
  exact spelled

/-- The characters without a meaning for the layout of a text. -/
def isVisible (c : Char) : Bool := 32 ≤ c.toNat

theorem isVisible_of_isNumberChar {c : Char} (numeric : Decimal.isNumberChar c = true) :
    isVisible c = true := by
  simp only [Decimal.isNumberChar, Bool.or_eq_true, List.contains_iff_mem] at numeric
  rcases numeric with digit | other
  · simp only [Char.isDigit, Bool.and_eq_true, decide_eq_true_eq, ge_iff_le,
      UInt32.le_iff_toNat_le] at digit
    have code : 48 ≤ c.toNat := digit.1
    simp only [isVisible, decide_eq_true_eq]
    omega
  · have all : "+-.eNaInfity".toList.all isVisible = true := by decide
    exact List.all_eq_true.mp all c other

theorem all_isVisible_of_all_isNumberChar
    {text : List Char} (numeric : text.all Decimal.isNumberChar = true) :
    text.all isVisible = true :=
  List.all_eq_true.mpr fun c member =>
    isVisible_of_isNumberChar (List.all_eq_true.mp numeric c member)

theorem all_isVisible_number (number : Number) : number.render.all isVisible = true := by
  cases number with
  | int value =>
      have digits := all_isVisible_of_all_isNumberChar
        (Decimal.all_isNumberChar_digitsOf value.natAbs)
      have minus : isVisible '-' = true := rfl
      rw [Number.render]
      split
      · rw [List.all_cons, minus, digits]
        rfl
      · exact digits
  | real x =>
      rw [Number.render]
      split
      · exact all_isVisible_of_all_isNumberChar (Decimal.Layout.all_isNumberChar_render rfl rfl x)
      · rfl

theorem all_isVisible_escapeChar (c : Char) : (escapeChar c).all isVisible = true := by
  by_cases control : c.toNat < 32
  · -- The control characters are few enough to be looked at one by one.
    have all : ∀ code < 32, (escapeChar (Char.ofNat code)).all isVisible = true := by decide
    have escaped := all c.toNat control
    rwa [Char.ofNat_toNat] at escaped
  · have visible : isVisible c = true := decide_eq_true (Nat.le_of_not_lt control)
    unfold escapeChar
    repeat' split
    all_goals first | rfl | contradiction | simp [visible]

theorem all_isVisible_quote (text : List Char) : (quote text).all isVisible = true := by
  have quotation : isVisible '"' = true := rfl
  simp [quote, quotation, all_isVisible_escapeChar]

mutual

/-- The text of a value is one line. -/
theorem all_isVisible_render : (value : Json) → value.render.all isVisible = true
  | .null => rfl
  | .bool true => rfl
  | .bool false => rfl
  | .num number => all_isVisible_number number
  | .str text => all_isVisible_quote text.toList
  | .arr items => by
      have inner := all_isVisible_renderItems items
      have opening : isVisible '[' = true := rfl
      have closing : isVisible ']' = true := rfl
      simp only [render, List.all_cons, List.all_append, List.all_nil, inner, opening, closing,
        Bool.and_self]
  | .obj members => by
      have inner := all_isVisible_renderMembers members
      have opening : isVisible '\x7b' = true := rfl
      have closing : isVisible '\x7d' = true := rfl
      simp only [render, List.all_cons, List.all_append, List.all_nil, inner, opening, closing,
        Bool.and_self]

theorem all_isVisible_renderItems : (items : List Json) → (renderItems items).all isVisible = true
  | [] => rfl
  | [item] => all_isVisible_render item
  | item :: next :: others => by
      have text : renderItems (item :: next :: others) =
          item.render ++ ',' :: renderItems (next :: others) := rfl
      have comma : isVisible ',' = true := rfl
      rw [text, List.all_append, List.all_cons, all_isVisible_render item,
        all_isVisible_renderItems (next :: others), comma]
      rfl

theorem all_isVisible_renderMembers :
    (members : List (String × Json)) → (renderMembers members).all isVisible = true
  | [] => rfl
  | [(key, value)] => by
      have colon : isVisible ':' = true := rfl
      rw [renderMembers, List.all_append, List.all_cons, all_isVisible_quote,
        all_isVisible_render value, colon]
      rfl
  | (key, value) :: next :: others => by
      have text : renderMembers ((key, value) :: next :: others) =
          quote key.toList ++ ':' :: (value.render ++ ',' :: renderMembers (next :: others)) := rfl
      have colon : isVisible ':' = true := rfl
      have comma : isVisible ',' = true := rfl
      rw [text, List.all_append, List.all_cons, List.all_append, List.all_cons,
        all_isVisible_quote, all_isVisible_render value,
        all_isVisible_renderMembers (next :: others), colon, comma]
      rfl

end

theorem all_isVisible_escapeClosing
    {text : List Char} (visible : text.all isVisible = true) :
    (escapeClosing text).all isVisible = true := by
  fun_induction escapeClosing text with
  | case1 rest induction => simp_all [isVisible]
  | case2 c rest whole induction => simp_all
  | case3 => rfl

/-- A literal is one line. -/
theorem all_isVisible_scriptLiteral (value? : Option Json) :
    (scriptLiteral value?).toList.all isVisible = true := by
  cases value? with
  | none => rfl
  | some value =>
      rw [scriptLiteral, String.toList_ofList]
      exact all_isVisible_escapeClosing (all_isVisible_render value)

end MapBlocks
