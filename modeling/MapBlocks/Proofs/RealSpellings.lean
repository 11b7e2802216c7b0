import MapBlocks.Proofs.CorrectReading
import MapBlocks.Proofs.NumeralTexts
import MapBlocks.Yaml.Value

/-!
# Spellings of real numbers

What a real number in YAML stands for: infinity, no number, or the double nearest to a
numeral.  Just these texts are taken for real numbers, and a real number counts as other
than zero exactly if it stands for a double that is, except that the spellings of
infinity do not count.
-/

namespace MapBlocks.Yaml.Value

open Decimal

/-- The double that the text of a real number stands for. -/
inductive StandsFor : String → Binary → Prop where
  | infinity {word : String} (known : word ∈ infinityWords) :
      StandsFor word (.infinite (word.toList.head? = some '-'))
  | nan {word : String} (known : word ∈ nanWords) : StandsFor word .nan
  | numeral {text : String} {numeral : Numeral} {parts : Binary}
      (spelled : numeral.Spells text.toList)
      (rounds : RoundsTo numeral.negative numeral.value parts) : StandsFor text parts

section Doubles

open Float.Model

theorem beq_zero_iff (x : Float) :
    (x == 0) = true ↔ ∃ negative exponent, Binary.ofFloat x = .finite negative 0 exponent := by
  have same : (x == 0) = x.toModel.unpack.beq (.zero .positive) := rfl
  rw [same, ofFloat_eq]
  cases x.toModel.unpack with
  | zero sign => exact iff_of_true rfl ⟨_, _, rfl⟩
  | notANumber => exact iff_of_false Bool.false_ne_true (by simp [Binary.ofUnpacked])
  | infinity sign =>
      refine iff_of_false ?_ (by simp [Binary.ofUnpacked])
      cases sign <;> exact Bool.false_ne_true
  | finite sign significand exponent positive =>
      refine iff_of_false ?_ (by simp [Binary.ofUnpacked, positive.ne'])
      cases sign <;> exact Bool.false_ne_true

/-- A number rounds to a number. -/
theorem isNaN_toFloat (numeral : Numeral) : numeral.toFloat.isNaN = false := by
  rw [← Bool.not_eq_true, ← ofFloat_eq_nan_iff]
  intro none
  have rounds := numeral.roundsTo_toFloat
  rw [none] at rounds
  cases rounds

end Doubles

section Words

/-- The words for infinity and for no number are no numerals, and none of them is read. -/
theorem float?_of_word {word : String} (known : word ∈ infinityWords ++ nanWords) :
    Numeral.parse? word.toList = none ∧ float? word.toList = none := by
  have unread : ∀ word ∈ infinityWords ++ nanWords,
      Numeral.parse? word.toList = none ∧ (float? word.toList).isNone = true := by decide
  exact ⟨(unread word known).1, Option.isNone_iff_eq_none.mp (unread word known).2⟩

theorem not_spells_of_word {word : String} (known : word ∈ infinityWords ++ nanWords)
    {numeral : Numeral} : ¬numeral.Spells word.toList := by
  intro spelled
  have read := Numeral.parse?_eq_some_iff.mpr spelled
  rw [(float?_of_word known).1] at read
  cases read

theorem toLower_of_isDigit {c : Char} (digit : c.isDigit = true) : c.toLower = c := by
  simp only [Char.isDigit, Bool.and_eq_true, decide_eq_true_eq] at digit
  rw [Char.toLower, dif_neg]
  intro upper
  have low : c.val.toNat ≤ '9'.val.toNat := digit.2
  have high : 'A'.val.toNat ≤ c.val.toNat := upper.1
  exact absurd (high.trans low) (by decide)

/-- A text with a digit is not one of the words that are read as infinity or no number. -/
theorem wordValue?_of_digit {text : List Char} {c : Char} (member : c ∈ text)
    (digit : c.isDigit = true) : wordValue? text = none := by
  have lower : c ∈ text.map Char.toLower :=
    toLower_of_isDigit digit ▸ List.mem_map_of_mem member
  have letters : ∀ word ∈ ["inf", "infinity", "nan"], word.toList.any Char.isDigit = false := by
    decide
  have other {word : String} (known : word ∈ ["inf", "infinity", "nan"]) :
      text.map Char.toLower ≠ word.toList := by
    intro same
    have shown : word.toList.any Char.isDigit = true :=
      List.any_eq_true.mpr ⟨c, same ▸ lower, digit⟩
    rw [letters word known] at shown
    cases shown
  simp only [wordValue?]
  rw [if_neg (not_or_intro (other (by simp)) (other (by simp))), if_neg (other (by simp))]

/-- A digit is not a sign. -/
theorem mem_takeSign {text : List Char} {c : Char} (member : c ∈ text)
    (digit : c.isDigit = true) : c ∈ (takeSign text).2 := by
  cases taken : takeSign text with
  | mk negative unsigned =>
      obtain ⟨sign, signed, rfl⟩ := exists_signText taken
      refine (List.mem_append.mp member).resolve_left fun inSign => ?_
      cases signed with
      | absent => cases inSign
      | plus => cases List.mem_singleton.mp inSign; cases digit
      | minus => cases List.mem_singleton.mp inSign; cases digit

end Words

section Meaning

variable {text : String}

theorem isDigit_of_isDigitOf {c : Char} (digit : isDigitOf 10 c = true) : c.isDigit = true := by
  obtain ⟨value, known, small⟩ := (Option.any_eq_true _ _).mp digit
  have code : 48 ≤ c.toNat ∧ c.toNat ≤ 57 := by
    have codes := code_of_digitValue? known
    rw [decide_eq_true_eq] at small
    omega
  simp only [Char.isDigit, Bool.and_eq_true, decide_eq_true_eq]
  exact ⟨code.1, code.2⟩

/-- A numeral has a digit. -/
theorem any_isDigit_of_spells {text : List Char} {numeral : Numeral}
    (spelled : numeral.Spells text) : text.any Char.isDigit = true := by
  obtain ⟨negative, whole, fraction, exponent⟩ := numeral
  obtain ⟨-, numeric, pointed, -⟩ := spelled
  dsimp only at *
  obtain ⟨digit, member⟩ := List.exists_mem_of_ne_nil _ numeric.nonempty
  rw [List.any_eq_true]
  refine ⟨digit, ?_, isDigit_of_isDigitOf (numeric.digits digit member)⟩
  simp only [List.mem_append]
  refine .inr (.inl ?_)
  cases pointed with
  | whole => exact List.append_nil whole ▸ member
  | point =>
      rw [List.mem_append] at member ⊢
      exact member.imp_right (List.mem_cons_of_mem _)

theorem standsFor_iff_of_spells {numeral : Numeral} (spelled : numeral.Spells text.toList)
    {parts : Binary} :
    StandsFor text parts ↔ Binary.ofFloat numeral.toFloat = parts := by
  constructor
  · intro stands
    cases stands with
    | infinity known => exact absurd spelled (not_spells_of_word (List.mem_append_left _ known))
    | nan known => exact absurd spelled (not_spells_of_word (List.mem_append_right _ known))
    | numeral other rounds =>
        have read := Numeral.parse?_eq_some_iff.mpr spelled
        rw [Numeral.parse?_eq_some_iff.mpr other] at read
        cases read
        exact numeral.roundsTo_toFloat.unique numeral.value_nonneg rounds
  · rintro rfl
    exact .numeral spelled numeral.roundsTo_toFloat

/-- Just the texts that stand for a double are taken for real numbers. -/
theorem isReal_iff : isReal text = true ↔ ∃ parts, StandsFor text parts := by
  simp only [isReal, Bool.or_eq_true, Bool.and_eq_true, List.contains_iff_mem]
  constructor
  · rintro ((known | known) | ⟨digit, read⟩)
    · exact ⟨_, .infinity known⟩
    · exact ⟨_, .nan known⟩
    · obtain ⟨c, member, digit⟩ := List.any_eq_true.mp digit
      cases parsed : Numeral.parse? text.toList with
      | some numeral =>
          exact ⟨_, .numeral (Numeral.parse?_eq_some_iff.mp parsed) numeral.roundsTo_toFloat⟩
      | none =>
          have word := wordValue?_of_digit (mem_takeSign member digit) digit
          rw [float?, parsed] at read
          simp only [word, Option.map_none, Option.isSome_none, Bool.false_eq_true] at read
  · rintro ⟨parts, stands⟩
    cases stands with
    | infinity known => exact .inl (.inl known)
    | nan known => exact .inl (.inr known)
    | numeral spelled =>
        refine .inr ⟨any_isDigit_of_spells spelled, ?_⟩
        rw [float?, Numeral.parse?_eq_some_iff.mpr spelled]
        rfl

/-- A real number counts unless it stands for zero or for no number, or is spelled as infinity. -/
theorem isNonzeroReal_iff (real : isReal text = true) :
    isNonzeroReal text = true ↔
      text ∉ infinityWords ∧ ¬StandsFor text .nan ∧
        ∀ negative exponent, ¬StandsFor text (.finite negative 0 exponent) := by
  obtain ⟨parts, stands⟩ := isReal_iff.mp real
  cases stands with
  | infinity known =>
      have unread := (float?_of_word (List.mem_append_left _ known)).2
      rw [isNonzeroReal, unread]
      exact iff_of_false Bool.false_ne_true fun counts => counts.1 known
  | nan known =>
      have unread := (float?_of_word (List.mem_append_right _ known)).2
      rw [isNonzeroReal, unread]
      exact iff_of_false Bool.false_ne_true fun counts => counts.2.1 (.nan known)
  | @numeral numeral _ spelled =>
      have unknown : text ∉ infinityWords := fun known =>
        not_spells_of_word (List.mem_append_left _ known) spelled
      rw [isNonzeroReal, float?, Numeral.parse?_eq_some_iff.mpr spelled]
      have zero := beq_zero_iff numeral.toFloat
      simp only [Option.any_some, isNaN_toFloat, standsFor_iff_of_spells spelled,
        ofFloat_eq_nan_iff, Bool.not_false, Bool.and_true, Bool.not_eq_true']
      rw [← Bool.not_eq_true, zero]
      simp [unknown]

end Meaning

end MapBlocks.Yaml.Value
