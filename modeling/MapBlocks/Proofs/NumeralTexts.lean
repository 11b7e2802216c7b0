import MapBlocks.Decimal.Numeral
import MapBlocks.Proofs.JsonNumbers

/-!
# Texts of numerals

The grammar of decimal numerals as a relation between a text and what it says, and the
proof that reading follows it: a text is read as a numeral exactly if it is one.
-/

namespace MapBlocks.Decimal

/-- A sign as it is written, and whether it is a minus. -/
inductive SignText : Bool → List Char → Prop where
  | absent : SignText false []
  | plus : SignText false ['+']
  | minus : SignText true ['-']

/-- One or more digits of a radix. -/
structure DigitText (radix : Nat) (text : List Char) : Prop where
  nonempty : text ≠ []
  digits : ∀ c ∈ text, isDigitOf radix c = true

namespace Numeral

/-- Digits with at most one point. Without a point there is no fraction. -/
inductive PointText : List Char → List Char → List Char → Prop where
  | whole (digits : List Char) : PointText digits [] digits
  | point (whole fraction : List Char) : PointText whole fraction (whole ++ '.' :: fraction)

/-- An exponent as it is written, if it is. -/
inductive ExponentText : Int → List Char → Prop where
  | absent : ExponentText 0 []
  | marked {mark : Char} {negative : Bool} {sign digits : List Char}
      (letter : mark = 'e' ∨ mark = 'E') (signed : SignText negative sign)
      (numeric : DigitText 10 digits) :
      ExponentText (if negative then -(valueOf 10 digits : Int) else valueOf 10 digits)
        (mark :: (sign ++ digits))

/-- An optional sign, decimal digits with at most one point and at least one digit, and an optional
exponent. -/
inductive Spells (numeral : Numeral) : List Char → Prop where
  | intro {sign digits exponent : List Char}
      (signed : SignText numeral.negative sign)
      (numeric : DigitText 10 (numeral.whole ++ numeral.fraction))
      (pointed : PointText numeral.whole numeral.fraction digits)
      (scaled : ExponentText numeral.exponent exponent) :
      Spells numeral (sign ++ (digits ++ exponent))

end Numeral

theorem natural?_eq_some_iff {radix value : Nat} {text : List Char} :
    natural? radix text = some value ↔ DigitText radix text ∧ valueOf radix text = value := by
  rw [natural?]
  split
  · rename_i fails
    simp only [reduceCtorEq, false_iff, not_and]
    intro numeric
    simp [numeric.nonempty, List.all_eq_true.mpr numeric.digits] at fails
  · rename_i succeeds
    simp only [Bool.or_eq_true, List.isEmpty_iff, Bool.not_eq_true', not_or, Bool.not_eq_false,
      List.all_eq_true] at succeeds
    simp only [Option.some.injEq, iff_and_self]
    exact fun _ => ⟨succeeds.1, succeeds.2⟩

/-- What follows a sign does not start with one. -/
def Unsigned (text : List Char) : Prop := ∀ c ∈ text.head?, c ≠ '-' ∧ c ≠ '+'

theorem exists_signText {text rest : List Char} {negative : Bool}
    (taken : takeSign text = (negative, rest)) :
    ∃ sign, SignText negative sign ∧ text = sign ++ rest := by
  unfold takeSign at taken
  split at taken
  · cases taken
    exact ⟨['-'], .minus, rfl⟩
  · cases taken
    exact ⟨['+'], .plus, rfl⟩
  · cases taken
    exact ⟨[], .absent, rfl⟩

theorem takeSign_signText {sign rest : List Char} {negative : Bool}
    (signed : SignText negative sign) (unsigned : Unsigned rest) :
    takeSign (sign ++ rest) = (negative, rest) := by
  cases signed with
  | minus => rfl
  | plus => rfl
  | absent =>
      cases rest with
      | nil => rfl
      | cons c others =>
          obtain ⟨minus, plus⟩ := unsigned c rfl
          exact Json.takeSign_of_ne minus plus others

/-- The characters that are digits, with their values. -/
theorem code_of_digitValue? {c : Char} {value : Nat} (known : digitValue? c = some value) :
    (48 ≤ c.toNat ∧ c.toNat ≤ 57 ∧ value = c.toNat - 48) ∨
      (97 ≤ c.toNat ∧ c.toNat ≤ 102 ∧ value = c.toNat - 87) ∨
      (65 ≤ c.toNat ∧ c.toNat ≤ 70 ∧ value = c.toNat - 55) := by
  simp only [digitValue?] at known
  split at known
  · cases known
    omega
  · split at known
    · cases known
      omega
    · split at known
      · cases known
        omega
      · cases known

theorem ne_of_isDigitOf {c : Char} (digit : isDigitOf 10 c = true) :
    c ≠ '-' ∧ c ≠ '+' ∧ c ≠ '.' ∧ c ≠ 'e' ∧ c ≠ 'E' := by
  refine ⟨?_, ?_, ?_, ?_, ?_⟩ <;>
  · rintro rfl
    cases digit

theorem unsigned_append {digits : List Char} (nonempty : digits ≠ [])
    (numeric : ∀ c ∈ digits, isDigitOf 10 c = true) (rest : List Char) :
    Unsigned (digits ++ rest) := by
  obtain ⟨first, others, rfl⟩ := List.exists_cons_of_ne_nil nonempty
  intro c same
  cases same
  obtain ⟨minus, plus, -⟩ := ne_of_isDigitOf (numeric first List.mem_cons_self)
  exact ⟨minus, plus⟩

namespace Numeral

theorem exponent?_eq_some_iff {text : List Char} {exponent : Int} :
    exponent? text = some exponent ↔ ExponentText exponent text := by
  constructor
  · intro read
    unfold exponent? at read
    split at read
    · cases read
      exact .absent
    · rename_i mark rest
      split at read
      · rename_i letter
        cases taken : takeSign rest with
        | mk negative digits =>
            simp only [taken, Option.bind_eq_bind, Option.bind_eq_some_iff] at read
            obtain ⟨magnitude, numeric, same⟩ := read
            obtain ⟨sign, signed, rfl⟩ := exists_signText taken
            obtain ⟨digitText, rfl⟩ := natural?_eq_some_iff.mp numeric
            cases same
            exact .marked letter signed digitText
      · cases read
  · intro spelled
    cases spelled with
    | absent => rfl
    | @marked mark negative sign digits letter signed numeric =>
        have taken := takeSign_signText signed
          (List.append_nil digits ▸ unsigned_append numeric.nonempty numeric.digits [])
        have value := natural?_eq_some_iff.mpr ⟨numeric, rfl⟩
        rw [exponent?, if_pos letter, taken]
        simp only [value, Option.bind_eq_bind, Option.bind_some]

theorem ExponentText.head? {text : List Char} {exponent : Int}
    (spelled : ExponentText exponent text) : ∀ c ∈ text.head?, c = 'e' ∨ c = 'E' := by
  intro c first
  cases spelled with
  | absent => cases first
  | marked letter =>
      cases first
      exact letter

theorem PointText.unsigned_append {whole fraction digits : List Char}
    (pointed : PointText whole fraction digits) (numeric : DigitText 10 (whole ++ fraction))
    (rest : List Char) : Unsigned (digits ++ rest) := by
  obtain ⟨nonempty, digits⟩ := numeric
  cases pointed with
  | whole =>
      rw [List.append_nil] at nonempty digits
      exact Decimal.unsigned_append nonempty digits rest
  | point =>
      cases whole with
      | nil =>
          intro c same
          cases same
          decide
      | cons first others =>
          rw [List.append_assoc]
          have leading : ∀ c ∈ first :: others, isDigitOf 10 c = true :=
            fun c member => digits c (List.mem_append_left _ member)
          exact Decimal.unsigned_append (List.cons_ne_nil _ _) leading _

theorem digitText_of_takeWhile {whole fraction : List Char}
    (some : ¬(whole.isEmpty && fraction.isEmpty) = true)
    (wholeDigits : ∀ c ∈ whole, isDigitOf 10 c = true)
    (fractionDigits : ∀ c ∈ fraction, isDigitOf 10 c = true) :
    DigitText 10 (whole ++ fraction) where
  nonempty := by simpa [List.append_eq_nil_iff] using some
  digits := List.forall_mem_append.mpr ⟨wholeDigits, fractionDigits⟩

theorem spells_of_parse? {text : List Char} {numeral : Numeral}
    (read : parse? text = some numeral) : Spells numeral text := by
  cases taken : takeSign text with
  | mk negative unsigned =>
      obtain ⟨sign, signed, rfl⟩ := exists_signText taken
      have leading (digits : List Char) : ∀ c ∈ digits.takeWhile (isDigitOf 10),
          isDigitOf 10 c = true := fun c => List.mem_takeWhile_imp
      have parts (digits : List Char) : digits.takeWhile (isDigitOf 10) ++
          digits.dropWhile (isDigitOf 10) = digits := List.takeWhile_append_dropWhile
      simp only [parse?, taken] at read
      split at read
      · rename_i rest dropped
        rw [Option.ite_none_left_eq_some, Option.map_eq_some_iff] at read
        obtain ⟨some, exponent, scaled, rfl⟩ := read
        have unfolded : unsigned.takeWhile (isDigitOf 10) ++ '.' :: rest.takeWhile (isDigitOf 10) ++
            rest.dropWhile (isDigitOf 10) = unsigned := by
          rw [List.append_assoc, List.cons_append, parts rest, ← dropped, parts unsigned]
        have numeric := digitText_of_takeWhile some (leading _) (leading _)
        conv => enter [2]; rw [← unfolded]
        exact .intro signed numeric (.point _ _) (exponent?_eq_some_iff.mp scaled)
      · rw [Option.ite_none_left_eq_some, Option.map_eq_some_iff] at read
        obtain ⟨some, exponent, scaled, rfl⟩ := read
        have numeric := digitText_of_takeWhile some (leading _) (List.forall_mem_nil _)
        conv => enter [2]; rw [← parts unsigned]
        exact .intro signed numeric (.whole _) (exponent?_eq_some_iff.mp scaled)

theorem parse?_of_spells {text : List Char} {numeral : Numeral}
    (spelled : Spells numeral text) : parse? text = some numeral := by
  obtain ⟨negative, whole, fraction, exponent⟩ := numeral
  obtain @⟨sign, digits, exponentText, signed, numeric, pointed, scaled⟩ := spelled
  dsimp only at *
  have value : exponent? exponentText = Option.some exponent := exponent?_eq_some_iff.mpr scaled
  have border : ∀ c ∈ exponentText.head?, isDigitOf 10 c = false ∧ c ≠ '.' := by
    intro c first
    rcases scaled.head? c first with rfl | rfl
    · decide
    · decide
  have some : ¬(whole.isEmpty && fraction.isEmpty) = true := by
    simpa [List.append_eq_nil_iff] using numeric.nonempty
  obtain ⟨wholeDigits, fractionDigits⟩ := List.forall_mem_append.mp numeric.digits
  rw [parse?, takeSign_signText signed (pointed.unsigned_append numeric _)]
  cases pointed with
  | whole =>
      obtain ⟨taken, dropped⟩ := Prod.ext_iff.mp
        (Json.takeDigits_append_of_digits wholeDigits fun c first => (border c first).1)
      dsimp only [Json.takeDigits] at taken dropped
      simp only [taken, dropped]
      split
      · rename_i rest
        exact absurd rfl (border '.' rfl).2
      · rw [if_neg some, value]
        rfl
  | point =>
      have stops : ∀ c ∈ ('.' :: (fraction ++ exponentText)).head?, isDigitOf 10 c = false := by
        intro c first
        cases first
        decide
      obtain ⟨taken, dropped⟩ := Prod.ext_iff.mp
        (Json.takeDigits_append_of_digits wholeDigits stops)
      obtain ⟨takenFraction, droppedFraction⟩ := Prod.ext_iff.mp
        (Json.takeDigits_append_of_digits fractionDigits fun c first => (border c first).1)
      dsimp only [Json.takeDigits] at taken dropped takenFraction droppedFraction
      rw [List.append_assoc, List.cons_append]
      simp only [taken, dropped, takenFraction, droppedFraction]
      rw [if_neg some, value]
      rfl

/-- A text is read as a numeral exactly if it spells the numeral. -/
theorem parse?_eq_some_iff {text : List Char} {numeral : Numeral} :
    parse? text = some numeral ↔ Spells numeral text :=
  ⟨spells_of_parse?, parse?_of_spells⟩

end Numeral

end MapBlocks.Decimal
