import MapBlocks.Json.Printer
import MapBlocks.Proofs.DecimalDigits
import MapBlocks.Proofs.DoubleBits
import MapBlocks.Proofs.JsonTokens
import MapBlocks.Proofs.NearestDoubles

/-!
# Numbers in JSON texts

A written number is a numeral with the digits of the shortest decimal, and it ends
where a delimiter follows.  The point and the exponent do not change the decimal, so
that the nearest double to the numeral is the number again.
-/

namespace MapBlocks.Json

open Decimal

/-- Whether a number cannot go on with the character. -/
def endsNumber (c : Char) : Bool := !isDigitOf 10 c && c != '.' && c != 'e' && c != 'E'

/-- Whether a number is complete where a text goes on: the text ends there, or it goes on with
something else. -/
def Delimits (rest : List Char) : Prop := ∀ c ∈ rest.head?, endsNumber c = true

theorem delimits_cons {c : Char} (ends : endsNumber c = true) (rest : List Char) :
    Delimits (c :: rest) := by
  intro first same
  cases same
  exact ends

theorem ne_of_endsNumber {c : Char} (ends : endsNumber c = true) :
    isDigitOf 10 c = false ∧ c ≠ '.' ∧ c ≠ 'e' ∧ c ≠ 'E' := by
  simpa [endsNumber, and_assoc] using ends

theorem takeDigits_append_of_digits
    {digits rest : List Char} (numeric : ∀ c ∈ digits, isDigitOf 10 c = true)
    (border : ∀ c ∈ rest.head?, isDigitOf 10 c = false) :
    takeDigits (digits ++ rest) = (digits, rest) := by
  rw [takeDigits, List.takeWhile_append_of_pos numeric, List.dropWhile_append_of_pos numeric]
  cases rest with
  | nil => simp
  | cons c others =>
      have stops := border c rfl
      simp [stops]

namespace Numeral

def fractionText : List Char → List Char
  | [] => []
  | digits => '.' :: digits

def exponentText : Option Int → List Char
  | none => []
  | some exponent => 'e' :: (if exponent < 0 then '-' else '+') :: digitsOf exponent.natAbs

/-- The text of a numeral. -/
def spelled (numeral : Numeral) : List Char :=
  (if numeral.negative then ['-'] else []) ++ (numeral.whole ++
    (fractionText numeral.fraction ++ exponentText numeral.exponent?))

/-- What the grammar asks of the digits of a numeral. -/
structure Grammatical (numeral : Numeral) : Prop where
  isWhole : isWholePart numeral.whole = true
  whole : ∀ c ∈ numeral.whole, isDigitOf 10 c = true
  fraction : ∀ c ∈ numeral.fraction, isDigitOf 10 c = true

theorem head?_exponentText_append
    (exponent? : Option Int) {rest : List Char} (delimited : Delimits rest) :
    ∀ c ∈ (exponentText exponent? ++ rest).head?, isDigitOf 10 c = false ∧ c ≠ '.' := by
  intro c first
  cases exponent? with
  | none =>
      obtain ⟨digit, point, -⟩ := ne_of_endsNumber (delimited c first)
      exact ⟨digit, point⟩
  | some exponent =>
      cases first
      decide

theorem exponentPart?_exponentText
    (exponent? : Option Int) {rest : List Char} (delimited : Delimits rest) :
    exponentPart? (exponentText exponent? ++ rest) = some (exponent?, rest) := by
  cases exponent? with
  | none =>
      cases rest with
      | nil => rfl
      | cons c others =>
          obtain ⟨-, -, lower, upper⟩ := ne_of_endsNumber (delimited c rfl)
          exact if_neg (not_or.mpr ⟨lower, upper⟩)
  | some exponent =>
      have border : ∀ c ∈ rest.head?, isDigitOf 10 c = false := fun c first =>
        (head?_exponentText_append none delimited c first).1
      have digits := takeDigits_append_of_digits
        (fun c => isDigitOf_of_mem_digitsOf (n := exponent.natAbs)) border
      have nonempty : (digitsOf exponent.natAbs).isEmpty = false := by
        simp [digitsOf_ne_nil]
      by_cases negative : exponent < 0
      · have magnitude : -(exponent.natAbs : Int) = exponent := by omega
        simp only [exponentText, if_pos negative, List.cons_append, exponentPart?, true_or,
          takeSign, digits, nonempty, Bool.false_eq_true, if_false, if_true, valueOf_digitsOf,
          magnitude]
      · have magnitude : (exponent.natAbs : Int) = exponent := by omega
        simp only [exponentText, if_neg negative, List.cons_append, exponentPart?, true_or,
          takeSign, digits, nonempty, Bool.false_eq_true, if_false, if_true, valueOf_digitsOf,
          magnitude]

theorem fractionPart?_fractionText
    {fraction rest : List Char} (digits : ∀ c ∈ fraction, isDigitOf 10 c = true)
    (border : ∀ c ∈ rest.head?, isDigitOf 10 c = false ∧ c ≠ '.') :
    fractionPart? (fractionText fraction ++ rest) = some (fraction, rest) := by
  have split := takeDigits_append_of_digits digits fun c first => (border c first).1
  match fraction with
  | [] =>
      match rest with
      | [] => rfl
      | c :: others => exact fractionPart?_of_ne (border c rfl).2 others
  | first :: others =>
      change (if (takeDigits (first :: others ++ rest)).1.isEmpty then none
        else some (takeDigits (first :: others ++ rest))) = _
      rw [split]
      rfl

theorem head?_fractionText_append
    (fraction : List Char) {rest : List Char}
    (border : ∀ c ∈ rest.head?, isDigitOf 10 c = false) :
    ∀ c ∈ (fractionText fraction ++ rest).head?, isDigitOf 10 c = false := by
  intro c first
  match fraction with
  | [] => exact border c first
  | digit :: others =>
      cases first
      decide

/-- A numeral reads back from its text. -/
theorem numeral?_spelled
    {numeral : Numeral} (grammatical : numeral.Grammatical) {rest : List Char}
    (delimited : Delimits rest) :
    numeral? (numeral.spelled ++ rest) = some (numeral, rest) := by
  have exponent := exponentPart?_exponentText numeral.exponent? delimited
  have border := head?_exponentText_append numeral.exponent? delimited
  have fraction := fractionPart?_fractionText grammatical.fraction border
  have whole := takeDigits_append_of_digits grammatical.whole
    (head?_fractionText_append numeral.fraction fun c first => (border c first).1)
  have isWhole := grammatical.isWhole
  have sign : takeMinus (numeral.spelled ++ rest) =
      (numeral.negative, numeral.whole ++ (fractionText numeral.fraction ++
        (exponentText numeral.exponent? ++ rest))) := by
    simp only [spelled, List.append_assoc]
    cases numeral.negative with
    | true => rfl
    | false =>
        match digits : numeral.whole with
        | [] => simp [digits, isWholePart] at isWhole
        | first :: others =>
            refine takeMinus_of_ne ?_ _
            rintro rfl
            have digit := grammatical.whole '-' (digits ▸ List.mem_cons_self)
            revert digit
            decide
  simp only [numeral?, sign, whole, isWhole, fraction, exponent, if_true,
    Option.bind_eq_bind, Option.bind_some]

/-- The decimal that a numeral is, apart from its sign. -/
def scaled (numeral : Numeral) : Scaled :=
  ⟨valueOf 10 (numeral.whole ++ numeral.fraction),
    numeral.exponent?.getD 0 - numeral.fraction.length⟩

/-- The numeral as which a decimal is written. -/
def ofScaled (negative : Bool) (decimal : Scaled) : Numeral :=
  let digits := digitsOf decimal.digits
  let whole := decimal.exponent + digits.length
  if numberLayout.isPositional (whole - 1) then
    if whole ≤ 0 then ⟨negative, ['0'], List.replicate (-whole).toNat '0' ++ digits, none⟩
    else if digits.length ≤ whole.toNat then
      ⟨negative, digits ++ List.replicate (whole.toNat - digits.length) '0', ['0'], none⟩
    else ⟨negative, digits.take whole.toNat, digits.drop whole.toNat, none⟩
  else ⟨negative, digits.take 1, digits.drop 1, some (whole - 1)⟩

theorem fractionText_of_ne_nil {digits : List Char} (nonempty : digits ≠ []) :
    fractionText digits = '.' :: digits := by
  cases digits with
  | nil => exact absurd rfl nonempty
  | cons first others => rfl

theorem isWholePart_cons {first : Char} (nonzero : first ≠ '0') (others : List Char) :
    isWholePart (first :: others) = true := by
  simp [isWholePart, nonzero]

theorem exists_digitsOf {n : ℕ} (positive : 0 < n) :
    ∃ first others, digitsOf n = first :: others ∧ first ≠ '0' := by
  have leading := head?_digitsOf positive
  match digits : digitsOf n with
  | [] => exact absurd digits (digitsOf_ne_nil _)
  | first :: others => exact ⟨first, others, rfl, by simpa [digits] using leading⟩

theorem isWholePart_digitsOf (n : ℕ) : isWholePart (digitsOf n) = true := by
  rcases Nat.eq_zero_or_pos n with rfl | positive
  · rfl
  · obtain ⟨first, others, digits, nonzero⟩ := exists_digitsOf positive
    rw [digits]
    exact isWholePart_cons nonzero others

theorem spelled_ofScaled (negative : Bool) (decimal : Scaled) :
    (ofScaled negative decimal).spelled =
      (if negative then ['-'] else []) ++ numberLayout.renderScaled decimal := by
  have nonempty := digitsOf_ne_nil decimal.digits
  simp only [ofScaled, Layout.renderScaled, positional]
  split
  · split
    · have fraction := fractionText_of_ne_nil (List.append_ne_nil_of_right_ne_nil
        (List.replicate (-(decimal.exponent + (digitsOf decimal.digits).length)).toNat '0')
        nonempty)
      simp only [spelled, fraction, exponentText, List.append_nil, List.cons_append,
        List.nil_append]
    · split
      · simp [spelled, fractionText, exponentText, numberLayout]
      · have remaining : (digitsOf decimal.digits).drop
            (decimal.exponent + (digitsOf decimal.digits).length).toNat ≠ [] := by
          rw [ne_eq, List.drop_eq_nil_iff]
          omega
        simp only [spelled, fractionText_of_ne_nil remaining, exponentText, List.append_nil]
  · match digits : digitsOf decimal.digits with
    | [] => exact absurd digits nonempty
    | [first] => simp [spelled, scientific, fractionText, exponentText]
    | first :: second :: others => simp [spelled, scientific, fractionText, exponentText]

/-- The four ways in which a decimal is written: below one, as a whole number, with a point
between its digits, and with an exponent. -/
theorem ofScaled_cases
    (negative : Bool) (decimal : Scaled) {motive : Numeral → Prop}
    (below : ∀ zeros : ℕ, decimal.exponent = -(zeros + (digitsOf decimal.digits).length : ℤ) →
      motive ⟨negative, ['0'], List.replicate zeros '0' ++ digitsOf decimal.digits, none⟩)
    (whole : ∀ zeros : ℕ, decimal.exponent = zeros →
      motive ⟨negative, digitsOf decimal.digits ++ List.replicate zeros '0', ['0'], none⟩)
    (pointed : ∀ count : ℕ, count + 1 < (digitsOf decimal.digits).length →
      decimal.exponent = (count + 1 : ℤ) - (digitsOf decimal.digits).length →
      motive ⟨negative, (digitsOf decimal.digits).take (count + 1),
        (digitsOf decimal.digits).drop (count + 1), none⟩)
    (scientific : motive ⟨negative, (digitsOf decimal.digits).take 1,
      (digitsOf decimal.digits).drop 1,
      some (decimal.exponent + (digitsOf decimal.digits).length - 1)⟩) :
    motive (ofScaled negative decimal) := by
  simp only [ofScaled]
  split
  · split
    · exact below _ (by omega)
    · split
      · exact whole _ (by omega)
      · obtain ⟨count, places⟩ : ∃ count,
            (decimal.exponent + (digitsOf decimal.digits).length).toNat = count + 1 :=
          Nat.exists_eq_add_one.mpr (by omega)
        rw [places]
        exact pointed count (by omega) (by omega)
  · exact scientific

theorem grammatical_ofScaled
    (negative : Bool) {decimal : Scaled} (positive : 0 < decimal.digits) :
    (ofScaled negative decimal).Grammatical := by
  have numeric : ∀ c ∈ digitsOf decimal.digits, isDigitOf 10 c = true := fun c =>
    isDigitOf_of_mem_digitsOf
  have zero := isDigitOf_of_mem_zeros
  have taken (count : ℕ) : ∀ c ∈ (digitsOf decimal.digits).take count, isDigitOf 10 c = true :=
    fun c member => numeric c (List.mem_of_mem_take member)
  have dropped (count : ℕ) :
      ∀ c ∈ (digitsOf decimal.digits).drop count, isDigitOf 10 c = true :=
    fun c member => numeric c (List.mem_of_mem_drop member)
  obtain ⟨first, others, digits, nonzero⟩ := exists_digitsOf positive
  have leading (later : List Char) : isWholePart (first :: later) = true :=
    isWholePart_cons nonzero later
  refine ofScaled_cases negative decimal ?below ?whole ?pointed ?scientific
  case below =>
    intro zeros _
    exact ⟨rfl, zero 1, List.forall_mem_append.mpr ⟨zero zeros, numeric⟩⟩
  case whole =>
    intro zeros _
    refine ⟨?_, List.forall_mem_append.mpr ⟨numeric, zero zeros⟩, zero 1⟩
    rw [digits]
    exact leading _
  case pointed =>
    intro count _ _
    refine ⟨?_, taken _, dropped _⟩
    rw [digits]
    exact leading _
  case scientific =>
    refine ⟨?_, taken _, dropped _⟩
    rw [digits]
    exact leading _

theorem value_scaled
    {numeral : Numeral} {decimal : Scaled} (zeros : ℕ)
    (digits : valueOf 10 (numeral.whole ++ numeral.fraction) = decimal.digits * 10 ^ zeros)
    (exponent : numeral.exponent?.getD 0 - numeral.fraction.length + zeros = decimal.exponent) :
    numeral.scaled.value = decimal.value := by
  rw [Scaled.value, Scaled.value, ← exponent, zpow_add₀ (by norm_num), zpow_natCast]
  simp only [scaled, digits]
  push_cast
  ring

/-- Neither the point nor the exponent of a written decimal changes its value. -/
theorem value_ofScaled (negative : Bool) (decimal : Scaled) :
    (ofScaled negative decimal).scaled.value = decimal.value := by
  have spells := valueOf_digitsOf decimal.digits
  have nonempty := List.length_pos_iff.mpr (digitsOf_ne_nil decimal.digits)
  refine ofScaled_cases negative decimal
    (motive := fun numeral => numeral.scaled.value = decimal.value)
    ?below ?whole ?pointed ?scientific
  case below =>
    intro zeros exponent
    refine value_scaled 0 ?_ ?_
    · rw [valueOf_append, valueOf_append, valueOf_zeros, spells]
      simp [valueOf, digitValue?]
    · simp only [Option.getD_none, List.length_append, List.length_replicate]
      omega
  case whole =>
    intro zeros exponent
    -- The digit after the point is one more zero.
    refine value_scaled (zeros + 1) ?_ ?_
    · rw [valueOf_append, valueOf_append, valueOf_zeros, spells, pow_succ]
      simp [valueOf, digitValue?, Nat.mul_assoc]
    · simp only [Option.getD_none, List.length_singleton]
      omega
  case pointed =>
    intro count inside exponent
    refine value_scaled 0 ?_ ?_
    · simp only [List.take_append_drop, spells, pow_zero, Nat.mul_one]
    · simp only [Option.getD_none, List.length_drop]
      omega
  case scientific =>
    refine value_scaled 0 ?_ ?_
    · simp only [List.take_append_drop, spells, pow_zero, Nat.mul_one]
    · simp only [Option.getD_some, List.length_drop]
      omega

/-- Whether a numeral is written as a whole number. -/
def isInteger (numeral : Numeral) : Bool := numeral.fraction.isEmpty && numeral.exponent?.isNone

/-- Decimals are never written as whole numbers, so that they are not taken for such. -/
theorem ofScaled_form (negative : Bool) (decimal : Scaled) :
    (ofScaled negative decimal).negative = negative ∧
      (ofScaled negative decimal).isInteger = false := by
  have nonempty := digitsOf_ne_nil decimal.digits
  refine ofScaled_cases negative decimal
    (motive := fun numeral => numeral.negative = negative ∧ numeral.isInteger = false)
    ?below ?whole ?pointed ?scientific
  case below =>
    intro zeros _
    exact ⟨rfl, by simp [isInteger, nonempty]⟩
  case whole => exact fun _ _ => ⟨rfl, rfl⟩
  case pointed =>
    intro count inside _
    refine ⟨rfl, ?_⟩
    simp only [isInteger, Bool.and_eq_false_iff, List.isEmpty_eq_false_iff, ne_eq,
      List.drop_eq_nil_iff]
    omega
  case scientific => exact ⟨rfl, by simp [isInteger]⟩

/-- The number that a numeral stands for: a whole number, or else the nearest double. -/
def nearest? (numeral : Numeral) : Option Number :=
  if numeral.isInteger then
    let magnitude : Int := valueOf 10 numeral.whole
    some (.int (if numeral.negative then -magnitude else magnitude))
  else
    numeral.scaled.nearest?.map fun (significand, exponent) =>
      .real (double numeral.negative significand exponent)

/-- The numeral as which a zero is written. -/
def zero (negative : Bool) : Numeral := ⟨negative, ['0'], ['0'], none⟩

/-- The numeral as which a double is written, if it is finite. -/
def ofBinary? : Binary → Option Numeral
  | .finite negative significand exponent =>
      if significand = 0 then some (zero negative)
      else
        let interval := RoundingInterval.around significand exponent
        some (ofScaled negative (interval.shortest numberLayout.tie))
  | _ => none

end Numeral

/-- The numeral as which a number is written. A double that is not finite has none. -/
def Number.numeral? : Number → Option Numeral
  | .int value => some ⟨value < 0, digitsOf value.natAbs, [], none⟩
  | .real x => if x.isFinite then Numeral.ofBinary? (.ofFloat x) else none

namespace Numeral

/-- A positive double, written and read again. -/
theorem nearest?_ofScaled_shortest
    {significand : ℕ} {exponent : ℤ} (negative : Bool)
    (canonical : RoundingInterval.Canonical significand exponent) (positive : 0 < significand) :
    (ofScaled negative
        ((RoundingInterval.around significand exponent).shortest numberLayout.tie)).nearest? =
      some (.real (double negative significand exponent)) := by
  have holds := RoundingInterval.holds_shortest canonical positive numberLayout.tie
  rw [← value_ofScaled negative] at holds
  obtain ⟨sign, fraction⟩ := ofScaled_form negative
    ((RoundingInterval.around significand exponent).shortest numberLayout.tie)
  rw [nearest?, fraction, Scaled.nearest?_eq canonical holds, sign]
  rfl

theorem nearest?_zero (negative : Bool) :
    (zero negative).nearest? = some (.real (double negative 0 (-1074))) := by
  have canonical : RoundingInterval.Canonical 0 (-1074) := by decide
  have value : (zero negative).scaled.value = 0 := by
    simp [Scaled.value, scaled, zero, valueOf, digitValue?]
  have found := Scaled.nearest?_eq canonical (value ▸ holds_zero)
  rw [nearest?, found]
  rfl

theorem grammatical_zero (negative : Bool) : (zero negative).Grammatical :=
  ⟨rfl, isDigitOf_of_mem_zeros 1, isDigitOf_of_mem_zeros 1⟩

end Numeral

/-- What is written for a number is a numeral, and the number is the one nearest to it. -/
theorem Number.render_of_numeral?
    {number : Number} {numeral : Numeral} (written : number.numeral? = some numeral) :
    number.render = numeral.spelled ∧ numeral.Grammatical ∧ numeral.nearest? = some number := by
  cases number with
  | int value =>
      cases written
      refine ⟨?_, ⟨Numeral.isWholePart_digitsOf _, fun c => isDigitOf_of_mem_digitsOf,
        fun c member => absurd member List.not_mem_nil⟩, ?_⟩
      · by_cases negative : value < 0
        · simp [render, Numeral.spelled, Numeral.fractionText, Numeral.exponentText, negative]
        · simp [render, Numeral.spelled, Numeral.fractionText, Numeral.exponentText, negative]
      · have sign : (if value < 0 then -(value.natAbs : Int) else value.natAbs) = value := by
          omega
        simp only [Numeral.nearest?, Numeral.isInteger, valueOf_digitsOf, decide_eq_true_eq, sign]
        rfl
  | real x =>
      simp only [numeral?, Option.ite_none_right_eq_some] at written
      obtain ⟨finite, written⟩ := written
      obtain ⟨negative, significand, exponent, parts, canonical, whole⟩ := parts_of_isFinite finite
      rw [parts, Numeral.ofBinary?] at written
      simp only [render, finite, if_true, Layout.render, String.toList_ofList, parts,
        Layout.renderBinary]
      split at written
      case isTrue zero =>
        -- Zero has no shortest decimal and is written as it is; its exponent is the least.
        subst zero
        cases written
        have least : exponent = -1074 := by
          have least := canonical.least
          have full := canonical.full
          omega
        refine ⟨by cases negative <;> rfl, Numeral.grammatical_zero negative, ?_⟩
        rw [Numeral.nearest?_zero, ← least, whole]
      case isFalse nonzero =>
        cases written
        have positive := Nat.pos_of_ne_zero nonzero
        have holds := RoundingInterval.holds_shortest canonical positive numberLayout.tie
        have digits := RoundingInterval.digits_pos_of_holds positive holds
        refine ⟨?_, Numeral.grammatical_ofScaled _ digits, ?_⟩
        · rw [if_neg nonzero, Numeral.spelled_ofScaled]
        · rw [Numeral.nearest?_ofScaled_shortest _ canonical positive, whole]

theorem Number.render_of_numeral?_eq_none
    {number : Number} (infinite : number.numeral? = none) : number.render = "null".toList := by
  cases number with
  | int value => cases infinite
  | real x =>
      rw [render]
      split
      case isFalse => rfl
      case isTrue finite =>
        obtain ⟨negative, significand, exponent, parts, -⟩ := parts_of_isFinite finite
        simp only [numeral?, finite, parts, Numeral.ofBinary?, if_true] at infinite
        split at infinite <;> cases infinite

end MapBlocks.Json
