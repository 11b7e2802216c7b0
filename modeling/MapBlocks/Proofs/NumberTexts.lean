import MapBlocks.Proofs.CorrectReading
import MapBlocks.Proofs.ListedParts
import MapBlocks.Proofs.NumeralTexts

/-!
# Texts of numbers

The numbers that a text can spell: whole numbers below `2 ^ 64` with a radix before
their digits, and decimal numerals that are in the range of doubles.  Parsing follows
this grammar on all texts, and it takes a plus sign after a radix besides.
-/

namespace MapBlocks.Map

open Decimal Text

/-- A zero and a letter say in which radix the digits after them are. -/
inductive RadixMark : ℕ → List Char → Prop where
  | hexadecimal {letter : Char} (written : letter = 'x' ∨ letter = 'X') : RadixMark 16 ['0', letter]
  | octal {letter : Char} (written : letter = 'o' ∨ letter = 'O') : RadixMark 8 ['0', letter]
  | binary {letter : Char} (written : letter = 'b' ∨ letter = 'B') : RadixMark 2 ['0', letter]

/-- A whole number below `2 ^ 64` with its radix, and the sign that stands before its digits. -/
inductive RadixText (sign : List Char) (value : ℕ) : List Char → Prop where
  | intro {radix : ℕ} {mark digits : List Char} (marked : RadixMark radix mark)
      (numeric : DigitText radix digits) (same : valueOf radix digits = value)
      (fits : value < 2 ^ 64) : RadixText sign value (mark ++ (sign ++ digits))

theorem RadixText.fits {sign text : List Char} {value : ℕ} (written : RadixText sign value text) :
    value < 2 ^ 64 := by
  cases written
  assumption

/-- Of all doubles a finite one is the nearest to a number, with a sign. -/
structure IsDouble (negative : Bool) (number : ℚ) (x : Float) : Prop where
  rounds : RoundsTo negative number (Binary.ofFloat x)
  finite : x.isFinite = true

/-- The number that a text spells. Digits of a radix have no sign. -/
inductive SpellsNumber (x : Float) : List Char → Prop where
  | radix {value : ℕ} {text : List Char} (written : RadixText [] value text)
      (double : IsDouble false value x) : SpellsNumber x text
  | decimal {numeral : Numeral} {text : List Char} (spelled : numeral.Spells text)
      (double : IsDouble numeral.negative numeral.value x) : SpellsNumber x text

section Doubles

theorem IsDouble.unique {negative : Bool} {number : ℚ} {x y : Float} (nonneg : 0 ≤ number)
    (first : IsDouble negative number x) (second : IsDouble negative number y) : x = y := by
  obtain ⟨_, _, _, parts, -, restored⟩ := parts_of_isFinite first.finite
  obtain ⟨_, _, _, otherParts, -, otherRestored⟩ := parts_of_isFinite second.finite
  have same := first.rounds.unique nonneg second.rounds
  rw [parts, otherParts] at same
  cases same
  rw [← restored, otherRestored]

theorem isDouble_ofWord {value : ℕ} (fits : value < 2 ^ 64) :
    IsDouble false value (ofWord value) := by
  refine ⟨?_, isFinite_ofWord value⟩
  rcases Nat.eq_zero_or_pos value with rfl | positive
  · exact roundsTo_zero
  · have rounds : RoundsTo false (value * (10 : ℚ) ^ (0 : ℤ))
        (Binary.ofFloat (Float.ofScientific value ((0 : ℤ) < 0) (0 : ℤ).natAbs)) :=
      roundsTo_ofScientific positive (by omega) (by decide)
    rw [zpow_zero, mul_one] at rounds
    rw [← ofScientific_eq_ofWord fits]
    exact rounds

theorem isDouble_iff {numeral : Numeral} {x : Float} :
    IsDouble numeral.negative numeral.value x ↔
      numeral.toFloat = x ∧ numeral.toFloat.isFinite = true := by
  constructor
  · intro double
    obtain ⟨_, _, _, parts, -, -⟩ := parts_of_isFinite double.finite
    have same := numeral.roundsTo_toFloat.unique numeral.value_nonneg double.rounds
    have finite := isFinite_of_parts (same.trans parts)
    have read : IsDouble numeral.negative numeral.value numeral.toFloat :=
      ⟨numeral.roundsTo_toFloat, finite⟩
    exact ⟨read.unique numeral.value_nonneg double, finite⟩
  · rintro ⟨rfl, finite⟩
    exact ⟨numeral.roundsTo_toFloat, finite⟩

end Doubles

section Reading

variable {text : List Char} {x : Float}

theorem radix?_eq_some_iff {letter : Char} {radix : ℕ} :
    radix? letter = some radix ↔ RadixMark radix ['0', letter] := by
  constructor
  · intro found
    unfold radix? at found
    split at found <;> cases found
    · exact .hexadecimal (.inl rfl)
    · exact .hexadecimal (.inr rfl)
    · exact .octal (.inl rfl)
    · exact .octal (.inr rfl)
    · exact .binary (.inl rfl)
    · exact .binary (.inr rfl)
  · intro marked
    cases marked with
    | hexadecimal written => rcases written with rfl | rfl <;> rfl
    | octal written => rcases written with rfl | rfl <;> rfl
    | binary written => rcases written with rfl | rfl <;> rfl

/-- Parsing leaves out a plus sign before the digits of a radix. -/
theorem radixNumber?_eq {letter : Char} {radix : ℕ} (known : radix? letter = some radix)
    {sign digits : List Char} (optional : sign = [] ∧ digits.head? ≠ some '+' ∨ sign = ['+']) :
    radixNumber? ('0' :: letter :: (sign ++ digits)) =
      (natural? radix digits).bind fun value =>
        if value < 2 ^ 64 then some (ofWord value) else none := by
  simp only [radixNumber?, known, Option.bind_eq_bind, Option.bind_some, Nat.pow_eq]
  rcases optional with ⟨rfl, unsigned⟩ | rfl
  · rw [List.nil_append]
    split
    · exact absurd rfl unsigned
    · rfl
  · rfl

theorem exists_plus (text : List Char) :
    ∃ sign digits, text = sign ++ digits ∧
      (sign = [] ∧ digits.head? ≠ some '+' ∨ sign = ['+']) := by
  by_cases plus : text.head? = some '+'
  · obtain ⟨digits, rfl⟩ := List.head?_eq_some_iff.mp plus
    exact ⟨['+'], digits, rfl, .inr rfl⟩
  · exact ⟨[], text, rfl, .inl ⟨rfl, plus⟩⟩

theorem radixNumber?_of_radixText {sign : List Char} {value : ℕ}
    (optional : sign = [] ∨ sign = ['+']) (written : RadixText sign value text) :
    radixNumber? text = some (ofWord value) := by
  obtain @⟨radix, mark, digits, marked, numeric, rfl, fits⟩ := written
  obtain ⟨letter, rfl⟩ : ∃ letter, mark = ['0', letter] := by cases marked <;> exact ⟨_, rfl⟩
  have known : radix? letter = some radix := radix?_eq_some_iff.mpr marked
  have unsigned : digits.head? ≠ some '+' := by
    intro first
    have digit : isDigitOf radix '+' = true := numeric.digits _ (List.mem_of_mem_head? first)
    cases digit
  have read : natural? radix digits = some (valueOf radix digits) :=
    natural?_eq_some_iff.mpr ⟨numeric, rfl⟩
  have parsed := radixNumber?_eq known (optional.imp_left fun none => ⟨none, unsigned⟩)
  rwa [read, Option.bind_some, if_pos fits] at parsed

theorem exists_radixText (read : radixNumber? text = some x) :
    ∃ sign value, (sign = [] ∨ sign = ['+']) ∧ RadixText sign value text ∧ ofWord value = x := by
  obtain ⟨letter, rest, radix, rfl, known⟩ :
      ∃ letter rest radix, text = '0' :: letter :: rest ∧ radix? letter = some radix := by
    unfold radixNumber? at read
    split at read
    · obtain ⟨radix, known, -⟩ := Option.bind_eq_some_iff.mp read
      exact ⟨_, _, radix, rfl, known⟩
    · cases read
  obtain ⟨sign, digits, rfl, optional⟩ := exists_plus rest
  rw [radixNumber?_eq known optional, Option.bind_eq_some_iff] at read
  obtain ⟨value, natural, fitting⟩ := read
  rw [Option.ite_none_right_eq_some] at fitting
  obtain ⟨numeric, same⟩ := natural?_eq_some_iff.mp natural
  exact ⟨sign, value, optional.imp_left And.left,
    .intro (radix?_eq_some_iff.mp known) numeric same fitting.1, Option.some.inj fitting.2⟩

theorem radixNumber?_eq_some_iff :
    radixNumber? text = some x ↔
      ∃ value : ℕ, (RadixText [] value text ∨ RadixText ['+'] value text) ∧
        IsDouble false value x := by
  constructor
  · intro read
    obtain ⟨sign, value, optional, written, rfl⟩ := exists_radixText read
    refine ⟨value, ?_, isDouble_ofWord written.fits⟩
    rcases optional with rfl | rfl
    · exact .inl written
    · exact .inr written
  · rintro ⟨value, written, double⟩
    rcases written with written | written
    · have same := (isDouble_ofWord written.fits).unique (Nat.cast_nonneg _) double
      rw [radixNumber?_of_radixText (.inl rfl) written, same]
    · have same := (isDouble_ofWord written.fits).unique (Nat.cast_nonneg _) double
      rw [radixNumber?_of_radixText (.inr rfl) written, same]

/-- A letter that stands for a radix is not part of a decimal numeral. -/
theorem parse?_of_radix {letter : Char} {radix : ℕ} (known : radix? letter = some radix)
    (rest : List Char) : Numeral.parse? ('0' :: letter :: rest) = none := by
  unfold radix? at known
  split at known
  case h_7 => cases known
  all_goals rfl

theorem not_isFinite_of_wordValue? (found : wordValue? text = some x) :
    x.isFinite = false ∧ (-x).isFinite = false := by
  simp only [wordValue?] at found
  split at found
  · cases found
    decide
  · split at found
    · cases found
      decide
    · cases found

/-- What is read as a finite number is a numeral, not a word. -/
theorem finite_float?_eq_some_iff :
    (float? text).filter Float.isFinite = some x ↔
      ∃ numeral : Numeral, numeral.Spells text ∧ IsDouble numeral.negative numeral.value x := by
  simp only [isDouble_iff, Option.filter_eq_some_iff]
  constructor
  · rintro ⟨read, finite⟩
    unfold float? at read
    split at read
    · rename_i numeral parsed
      cases read
      exact ⟨numeral, Numeral.parse?_eq_some_iff.mp parsed, rfl, finite⟩
    · obtain ⟨value, found, rfl⟩ := Option.map_eq_some_iff.mp read
      obtain ⟨plain, negated⟩ := not_isFinite_of_wordValue? found
      rw [apply_ite Float.isFinite, negated, plain, ite_self] at finite
      cases finite
  · rintro ⟨numeral, spelled, rfl, finite⟩
    refine ⟨?_, finite⟩
    rw [float?, Numeral.parse?_eq_some_iff.mpr spelled]

theorem radixNumber?_of_spells {numeral : Numeral} (spelled : numeral.Spells text) :
    radixNumber? text = none := by
  rw [Option.eq_none_iff_forall_ne_some]
  intro x read
  unfold radixNumber? at read
  split at read
  · obtain ⟨radix, known, -⟩ := Option.bind_eq_some_iff.mp read
    have parsed := Numeral.parse?_eq_some_iff.mpr spelled
    rw [parse?_of_radix known] at parsed
    cases parsed
  · cases read

/-- The order in which the two notations are tried makes no difference. -/
theorem orElse_eq_some_iff :
    (radixNumber? text <|> (float? text).filter Float.isFinite) = some x ↔
      SpellsNumber x text ∨ ∃ value : ℕ, RadixText ['+'] value text ∧ IsDouble false value x := by
  rw [Option.orElse_eq_orElse, Option.orElse_eq_or, Option.or_eq_some_iff,
    radixNumber?_eq_some_iff, finite_float?_eq_some_iff]
  constructor
  · rintro (⟨value, written | written, double⟩ | ⟨-, numeral, spelled, double⟩)
    · exact .inl (.radix written double)
    · exact .inr ⟨value, written, double⟩
    · exact .inl (.decimal spelled double)
  · rintro (spelled | ⟨value, written, double⟩)
    · cases spelled with
      | radix written double => exact .inl ⟨_, .inl written, double⟩
      | decimal spelled double => exact .inr ⟨radixNumber?_of_spells spelled, _, spelled, double⟩
    · exact .inl ⟨value, .inr written, double⟩

end Reading

section Blanks

variable {text : List Char} {c : Char}

theorem isBlank_of_isDigitOf {radix : ℕ} (digit : isDigitOf radix c = true) :
    isBlank c = false := by
  obtain ⟨value, known, -⟩ := (Option.any_eq_true _ _).mp digit
  have code := code_of_digitValue? known
  rw [← Bool.not_eq_true]
  simp only [isBlank, Bool.or_eq_true, Bool.and_eq_true, decide_eq_true_eq, beq_iff_eq]
  omega

theorem isBlank_of_mem_radixText {sign : List Char} {value : ℕ}
    (optional : sign = [] ∨ sign = ['+']) (written : RadixText sign value text) :
    ∀ c ∈ text, isBlank c = false := by
  obtain @⟨radix, mark, digits, marked, numeric, -, -⟩ := written
  obtain ⟨letter, rfl, visible⟩ : ∃ letter, mark = ['0', letter] ∧ isBlank letter = false := by
    cases marked with
    | hexadecimal written => rcases written with rfl | rfl <;> exact ⟨_, rfl, rfl⟩
    | octal written => rcases written with rfl | rfl <;> exact ⟨_, rfl, rfl⟩
    | binary written => rcases written with rfl | rfl <;> exact ⟨_, rfl, rfl⟩
  have signs : ∀ c ∈ sign, isBlank c = false := by
    rcases optional with rfl | rfl
    · exact List.forall_mem_nil _
    · exact List.forall_mem_singleton.mpr rfl
  simp only [List.forall_mem_append, List.forall_mem_cons]
  exact ⟨⟨rfl, visible, List.forall_mem_nil _⟩, signs,
    fun c member => isBlank_of_isDigitOf (numeric.digits c member)⟩

theorem isBlank_of_mem_signText {negative : Bool} (signed : SignText negative text) :
    ∀ c ∈ text, isBlank c = false := by
  cases signed with
  | absent => exact List.forall_mem_nil _
  | plus => exact List.forall_mem_singleton.mpr rfl
  | minus => exact List.forall_mem_singleton.mpr rfl

theorem isBlank_of_mem_numeral {numeral : Numeral} (spelled : numeral.Spells text) :
    ∀ c ∈ text, isBlank c = false := by
  obtain ⟨negative, whole, fraction, scale⟩ := numeral
  obtain @⟨sign, digits, exponent, signed, numeric, pointed, scaled⟩ := spelled
  dsimp only at *
  obtain ⟨wholeDigits, fractionDigits⟩ := List.forall_mem_append.mp numeric.digits
  have visible {text : List Char} (numeric : ∀ c ∈ text, isDigitOf 10 c = true) :
      ∀ c ∈ text, isBlank c = false := fun c member => isBlank_of_isDigitOf (numeric c member)
  simp only [List.forall_mem_append]
  refine ⟨isBlank_of_mem_signText signed, ?_, ?_⟩
  · cases pointed with
    | whole => exact visible wholeDigits
    | point =>
        rw [List.forall_mem_append, List.forall_mem_cons]
        exact ⟨visible wholeDigits, rfl, visible fractionDigits⟩
  · cases scaled with
    | absent => exact List.forall_mem_nil _
    | @marked mark negative sign digits letter signed numeric =>
        have letter : isBlank mark = false := by rcases letter with rfl | rfl <;> rfl
        rw [List.forall_mem_cons, List.forall_mem_append]
        exact ⟨letter, isBlank_of_mem_signText signed, visible numeric.digits⟩

theorem isBlank_of_mem_spelled {x : Float} (spelled : SpellsNumber x text) :
    ∀ c ∈ text, isBlank c = false := by
  cases spelled with
  | radix written => exact isBlank_of_mem_radixText (.inl rfl) written
  | decimal spelled => exact isBlank_of_mem_numeral spelled

theorem trim_eq_of_pads {body padded : String} (pads : Pads body padded)
    (visible : ∀ c ∈ body.toList, isBlank c = false) : trim padded.toList = body.toList := by
  have same := congrArg String.toList pads.trimmed_eq
  rw [trimmed, trimmed, String.toList_ofList, String.toList_ofList] at same
  rw [same, trim_of_isTrimmed (isTrimmed_of_forall visible)]

end Blanks

/-- A text is parsed as a number exactly if it spells the number, with any blanks around it, or if
it is a whole number with a plus sign between its radix and its digits. -/
theorem parseNumber?_eq_some_iff {text : String} {x : Float} :
    parseNumber? text = some x ↔
      ∃ body, Pads body text ∧
        (SpellsNumber x body.toList ∨
          ∃ value : ℕ, RadixText ['+'] value body.toList ∧ IsDouble false value x) := by
  rw [parseNumber?]
  constructor
  · intro read
    refine ⟨trimmed text, .of_trimmed text, ?_⟩
    rw [trimmed, String.toList_ofList]
    exact orElse_eq_some_iff.mp read
  · rintro ⟨body, pads, spelled⟩
    have visible : ∀ c ∈ body.toList, isBlank c = false := by
      rcases spelled with spelled | ⟨value, written, -⟩
      · exact isBlank_of_mem_spelled spelled
      · exact isBlank_of_mem_radixText (.inr rfl) written
    rw [trim_eq_of_pads pads visible]
    exact orElse_eq_some_iff.mpr spelled

/-- A sign is accepted although the digits of a radix have none. -/
theorem parseNumber?_signed_radix :
    parseNumber? "0x+1A" = some 26 ∧ ¬∃ x body, Pads body "0x+1A" ∧ SpellsNumber x body.toList := by
  refine ⟨by decide, ?_⟩
  rintro ⟨x, body, pads, spelled⟩
  have same := trim_eq_of_pads pads (isBlank_of_mem_spelled spelled)
  have text : body.toList = ['0', 'x', '+', '1', 'A'] := same.symm
  rw [text] at spelled
  generalize letters : ['0', 'x', '+', '1', 'A'] = text at spelled
  cases spelled with
  | radix written =>
      obtain @⟨radix, _, _, marked, numeric, -, -⟩ := written
      have digit : isDigitOf radix '+' = true := by
        cases marked <;>
        · cases letters
          exact numeric.digits _ List.mem_cons_self
      cases digit
  | decimal spelled =>
      have parsed := Numeral.parse?_eq_some_iff.mpr spelled
      subst letters
      cases parsed

end MapBlocks.Map
