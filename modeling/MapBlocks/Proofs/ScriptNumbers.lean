import MapBlocks.Proofs.ShortestDigits
import MapBlocks.Render

/-!
# Numbers in scripts

The standard of the scripting language writes a number positionally if its point is
close to its digits and with an exponent otherwise.  Of two shortest decimals that
are as near to the number it takes the even one, so that each number has one text.
Numbers in the scripts of a map are always written positionally, with the greater
one of the two.
-/

namespace MapBlocks

open Decimal

/-- Digits with a point in its place, and zeros between the two if they are apart. -/
inductive PositionalText (digits : List Char) : ℤ → List Char → Prop where
  | whole (zeros : ℕ) :
      PositionalText digits (digits.length + zeros) (digits ++ List.replicate zeros '0')
  | split {leading trailing : List Char} (parts : leading ++ trailing = digits)
      (first : leading ≠ []) (last : trailing ≠ []) :
      PositionalText digits leading.length (leading ++ '.' :: trailing)
  | small (zeros : ℕ) :
      PositionalText digits (-zeros) ('0' :: '.' :: (List.replicate zeros '0' ++ digits))

/-- The exponent that puts the point after the first digit. -/
def exponentMark (point : ℤ) : List Char :=
  'e' :: (if point - 1 < 0 then '-' else '+') :: digitsOf (point - 1).natAbs

/-- Digits with the point after the first one and an exponent. -/
inductive ExponentialText (point : ℤ) : List Char → List Char → Prop where
  | single (digit : Char) : ExponentialText point [digit] (digit :: exponentMark point)
  | several (digit : Char) {rest : List Char} (more : rest ≠ []) :
      ExponentialText point (digit :: rest) (digit :: '.' :: (rest ++ exponentMark point))

/-- Where the standard puts a point among the digits or close to them. -/
def IsClose (point : ℤ) : Prop := -5 ≤ point ∧ point ≤ 21

/-- The text of a number by the standard. -/
inductive ScriptText (x : Float) : String → Prop where
  | nan (parts : Binary.ofFloat x = .nan) : ScriptText x "NaN"
  | infinity (parts : Binary.ofFloat x = .infinite false) : ScriptText x "Infinity"
  | negativeInfinity (parts : Binary.ofFloat x = .infinite true) : ScriptText x "-Infinity"
  | zero {negative : Bool} {exponent : ℤ} (parts : Binary.ofFloat x = .finite negative 0 exponent) :
      ScriptText x "0"
  | positional {negative : Bool} {significand : ℕ} {exponent : ℤ} {decimal : Scaled}
      {text : List Char} (parts : Binary.ofFloat x = .finite negative significand exponent)
      (positive : 0 < significand) (even : IsEvenShortest significand exponent decimal)
      (close : IsClose decimal.point)
      (written : PositionalText (digitsOf decimal.digits) decimal.point text) :
      ScriptText x (String.ofList (signed negative text))
  | exponential {negative : Bool} {significand : ℕ} {exponent : ℤ} {decimal : Scaled}
      {text : List Char} (parts : Binary.ofFloat x = .finite negative significand exponent)
      (positive : 0 < significand) (even : IsEvenShortest significand exponent decimal)
      (far : ¬IsClose decimal.point)
      (written : ExponentialText decimal.point (digitsOf decimal.digits) text) :
      ScriptText x (String.ofList (signed negative text))

section Positional

variable {digits text : List Char} {point : ℤ}

theorem positionalText_positional (digits : List Char) (point : ℤ) :
    PositionalText digits point (positional false digits point) := by
  rw [positional]
  split
  · rename_i nonpositive
    have zeros : -((-point).toNat : ℤ) = point := by omega
    have written : PositionalText digits _ _ := .small (-point).toNat
    rwa [zeros] at written
  · rename_i positive
    split
    · rename_i long
      have zeros : (digits.length : ℤ) + (point.toNat - digits.length : ℕ) = point := by omega
      have written : PositionalText digits _ _ := .whole (point.toNat - digits.length)
      rw [zeros] at written
      simpa using written
    · rename_i short
      have taken : (digits.take point.toNat).length = point.toNat :=
        List.length_take_of_le (by omega)
      have placed : ((digits.take point.toNat).length : ℤ) = point := by omega
      have written := PositionalText.split (List.take_append_drop point.toNat digits)
        (by rw [← List.length_pos_iff_ne_nil]; omega)
        (by rw [← List.length_pos_iff_ne_nil, List.length_drop]; omega)
      rwa [placed] at written

theorem eq_positional_of_positionalText (nonempty : digits ≠ [])
    (written : PositionalText digits point text) : text = positional false digits point := by
  have length := List.length_pos_iff_ne_nil.mpr nonempty
  cases written with
  | whole zeros =>
      have zeros_eq : ((digits.length : ℤ) + zeros).toNat - digits.length = zeros := by omega
      rw [positional, if_neg (by omega), if_pos (by omega), zeros_eq]
      simp
  | @split leading trailing parts first last =>
      subst parts
      have before := List.length_pos_iff_ne_nil.mpr first
      have behind := List.length_pos_iff_ne_nil.mpr last
      rw [positional, if_neg (by omega), if_neg (by rw [List.length_append]; omega)]
      simp
  | small zeros =>
      rw [positional, if_pos (by omega)]
      simp

/-- Digits of one length with the point in one place can be told from the text. -/
theorem positional_injective {others : List Char} (length : digits.length = others.length)
    (same : positional false digits point = positional false others point) : digits = others := by
  unfold positional at same
  rw [← length] at same
  split at same
  · exact List.append_cancel_left (List.cons.inj (List.cons.inj same).2).2
  · split at same
    · exact List.append_cancel_right (List.append_cancel_right same)
    · have parts := List.append_inj same (by rw [List.length_take, List.length_take, length])
      rw [← List.take_append_drop point.toNat digits, parts.1, (List.cons.inj parts.2).2,
        List.take_append_drop]

theorem eq_scientific_of_exponentialText (written : ExponentialText point digits text) :
    text = scientific digits (point - 1) := by
  cases written with
  | single digit => rfl
  | @several digit rest more =>
      cases rest with
      | nil => exact absurd rfl more
      | cons second others => rfl

theorem exponentialText_scientific (nonempty : digits ≠ []) (point : ℤ) :
    ExponentialText point digits (scientific digits (point - 1)) := by
  cases digits with
  | nil => exact absurd rfl nonempty
  | cons digit rest =>
      cases rest with
      | nil => exact .single digit
      | cons second others => exact .several digit (List.cons_ne_nil second others)

/-- Reads the place of the point off a text in positional notation. -/
def pointOf (text : List Char) : ℤ :=
  let leading := text.takeWhile (· ≠ '.')
  if leading = ['0'] then -(((text.drop 2).takeWhile (· = '0')).length : ℤ) else leading.length

/-- What stands before a point, or all if there is none. -/
theorem takeWhile_eq_of_not_mem {leading rest : List Char} (free : '.' ∉ leading)
    (border : ∀ c ∈ rest.head?, c = '.') : (leading ++ rest).takeWhile (· ≠ '.') = leading := by
  have kept : ∀ c ∈ leading, decide (c ≠ '.') = true := by
    intro c member
    rw [decide_eq_true_eq]
    rintro rfl
    exact free member
  rw [List.takeWhile_append_of_pos kept]
  cases rest with
  | nil => rw [List.takeWhile_nil, List.append_nil]
  | cons c rest =>
      cases border c rfl
      rw [List.takeWhile_cons_of_neg (by decide), List.append_nil]

theorem pointOf_of_leading {leading rest : List Char} (free : '.' ∉ leading)
    (border : ∀ c ∈ rest.head?, c = '.') (nonzero : leading.head? ≠ some '0') :
    pointOf (leading ++ rest) = leading.length := by
  have other : leading ≠ ['0'] := by
    rintro rfl
    exact nonzero rfl
  simp only [pointOf, takeWhile_eq_of_not_mem free border, if_neg other]

/-- The text says where the point stands. -/
theorem pointOf_positionalText (written : PositionalText digits point text)
    (numeric : '.' ∉ digits) (first : digits.head? ≠ some '0') (nonempty : digits ≠ []) :
    pointOf text = point := by
  cases written with
  | whole zeros =>
      have free : '.' ∉ digits ++ List.replicate zeros '0' := by
        rw [List.mem_append, not_or]
        exact ⟨numeric, fun inZeros => by cases List.eq_of_mem_replicate inZeros⟩
      have nonzero : (digits ++ List.replicate zeros '0').head? ≠ some '0' := by
        rwa [List.head?_append_of_ne_nil _ nonempty]
      have border : ∀ c ∈ ([] : List Char).head?, c = '.' := nofun
      have point := pointOf_of_leading free border nonzero
      rw [List.append_nil] at point
      rw [point, List.length_append, List.length_replicate, Nat.cast_add]
  | @split leading trailing parts nonemptyLeading last =>
      subst parts
      rw [List.mem_append, not_or] at numeric
      rw [List.head?_append_of_ne_nil _ nonemptyLeading] at first
      exact pointOf_of_leading numeric.1 (by simp) first
  | small zeros =>
      have leading :
          ('0' :: '.' :: (List.replicate zeros '0' ++ digits)).takeWhile (· ≠ '.') = ['0'] := rfl
      have stops : digits.takeWhile (· = '0') = [] := by
        cases digits with
        | nil => rfl
        | cons c rest =>
            have other : c ≠ '0' := fun same => first (congrArg some same)
            rw [List.takeWhile_cons_of_neg (by simpa using other)]
      have counted : (List.replicate zeros '0' ++ digits).takeWhile (· = '0') =
          List.replicate zeros '0' := by
        rw [List.takeWhile_append_of_pos (by simp), stops, List.append_nil]
      rw [pointOf, leading, if_pos rfl]
      rw [List.drop_succ_cons, List.drop_succ_cons, List.drop_zero, counted,
        List.length_replicate]

end Positional

section Numbers

variable {x : Float} {negative : Bool} {significand : ℕ} {exponent : ℤ} {decimal : Scaled}
  {text : List Char}

/-- The digits of a number do not start with a zero, and no point or exponent is among them. -/
theorem digits_of_isShortest (positive : 0 < significand)
    (shortest : IsShortest significand exponent decimal) :
    digitsOf decimal.digits ≠ [] ∧ (digitsOf decimal.digits).head? ≠ some '0' ∧
      '.' ∉ digitsOf decimal.digits ∧ 'e' ∉ digitsOf decimal.digits := by
  have holds := holds_of_isNearest decimal.value_nonneg shortest.reads
  have nonzero := RoundingInterval.digits_pos_of_holds positive holds
  refine ⟨digitsOf_ne_nil _, head?_digitsOf nonzero, ?_, ?_⟩
  · intro member
    have code := code_of_mem_digitsOf member
    simp at code
  · intro member
    have code := code_of_mem_digitsOf member
    simp at code

theorem e_not_mem_positionalText {digits : List Char} {point : ℤ}
    (written : PositionalText digits point text) (free : 'e' ∉ digits) : 'e' ∉ text := by
  cases written with
  | whole zeros => simp [free]
  | split parts => subst parts; simpa using free
  | small zeros => simp [free]

theorem e_mem_exponentialText {digits : List Char} {point : ℤ}
    (written : ExponentialText point digits text) : 'e' ∈ text := by
  cases written <;> simp [exponentMark]

theorem signed_injective {first second : List Char}
    (same : String.ofList (signed negative first) = String.ofList (signed negative second)) :
    first = second := by
  have lists := String.ofList_injective same
  cases negative with
  | true => exact (List.cons.inj lists).2
  | false => exact lists

end Numbers

/-- The parts of a finite double are in the form in which the bits hold them. -/
theorem canonical_of_parts
    {x : Float} {negative : Bool} {significand : ℕ} {exponent : ℤ}
    (parts : Binary.ofFloat x = .finite negative significand exponent) :
    RoundingInterval.Canonical significand exponent := by
  obtain ⟨_, _, _, held, canonical, -⟩ := parts_of_isFinite (isFinite_of_parts parts)
  rw [parts] at held
  cases held
  exact canonical

/-- The layout of numbers by the standard. -/
def standardNumbers : Layout where
  least? := some (-6)
  greatest? := some 20
  showsPoint := false
  tie := .toEven
  zero := "0"
  negativeZero := "0"

theorem isPositional_standardNumbers (point : ℤ) :
    standardNumbers.isPositional (point - 1) = true ↔ IsClose point := by
  simp only [Layout.isPositional, standardNumbers, Option.all_some, Bool.and_eq_true,
    decide_eq_true_eq, IsClose]
  omega

/-- The layout is positional where the point is close, and has an exponent elsewhere. -/
theorem eq_renderScaled_standardNumbers_iff (decimal : Scaled) (text : List Char) :
    text = standardNumbers.renderScaled decimal ↔
      (IsClose decimal.point ∧
        PositionalText (digitsOf decimal.digits) decimal.point text) ∨
      (¬IsClose decimal.point ∧
        ExponentialText decimal.point (digitsOf decimal.digits) text) := by
  have nonempty := digitsOf_ne_nil decimal.digits
  by_cases close : IsClose decimal.point
  · have laid : standardNumbers.renderScaled decimal =
        positional false (digitsOf decimal.digits) decimal.point :=
      if_pos ((isPositional_standardNumbers _).mpr close)
    simp only [laid, close, true_and, not_true_eq_false, false_and, or_false]
    exact ⟨fun same => same ▸ positionalText_positional _ _,
      eq_positional_of_positionalText nonempty⟩
  · have laid : standardNumbers.renderScaled decimal =
        scientific (digitsOf decimal.digits) (decimal.point - 1) :=
      if_neg fun isPositional => close ((isPositional_standardNumbers _).mp isPositional)
    simp only [laid, close, false_and, not_false_eq_true, true_and, false_or]
    exact ⟨fun same => same ▸ exponentialText_scientific nonempty _,
      eq_scientific_of_exponentialText⟩

theorem render_standardNumbers {x : Float} {negative : Bool} {significand : ℕ} {exponent : ℤ}
    (parts : Binary.ofFloat x = .finite negative significand exponent)
    (positive : 0 < significand) :
    standardNumbers.render x = String.ofList (signed negative (standardNumbers.renderScaled
      ((RoundingInterval.around significand exponent).shortest .toEven))) := by
  rw [Layout.render, parts, Layout.renderBinary, if_neg positive.ne']
  cases negative <;> rfl

/-- Each number has one text by the standard, and the layout gives it. -/
theorem scriptText_iff (x : Float) (text : String) :
    ScriptText x text ↔ text = standardNumbers.render x := by
  constructor
  · intro standard
    cases standard with
    | nan parts => rw [Layout.render, parts]; rfl
    | infinity parts => rw [Layout.render, parts]; rfl
    | negativeInfinity parts => rw [Layout.render, parts]; rfl
    | @zero negative _ parts =>
        rw [Layout.render, parts]
        cases negative <;> rfl
    | @positional _ _ _ decimal body parts positive even close written =>
        have laid := (eq_renderScaled_standardNumbers_iff decimal body).mpr (.inl ⟨close, written⟩)
        rw [render_standardNumbers parts positive,
          ← even.eq_shortest (canonical_of_parts parts) positive, ← laid]
    | @exponential _ _ _ decimal body parts positive even far written =>
        have laid := (eq_renderScaled_standardNumbers_iff decimal body).mpr (.inr ⟨far, written⟩)
        rw [render_standardNumbers parts positive,
          ← even.eq_shortest (canonical_of_parts parts) positive, ← laid]
  · rintro rfl
    cases parts : Binary.ofFloat x with
    | nan =>
        rw [Layout.render, parts]
        exact .nan parts
    | infinite negative =>
        rw [Layout.render, parts]
        cases negative with
        | false => exact .infinity parts
        | true => exact .negativeInfinity parts
    | finite negative significand exponent =>
        rcases Nat.eq_zero_or_pos significand with rfl | positive
        · rw [Layout.render, parts]
          cases negative with
          | false => exact .zero parts
          | true => exact .zero parts
        · have even := isEvenShortest_shortest_toEven (canonical_of_parts parts) positive
          rw [render_standardNumbers parts positive]
          rcases (eq_renderScaled_standardNumbers_iff _ _).mp rfl with
            ⟨close, written⟩ | ⟨far, written⟩
          · exact .positional parts positive even close written
          · exact .exponential parts positive even far written

example : standardNumbers.render 1.5e-7 = "1.5e-7" := by decide

/-- A number midway between two shortest decimals. -/
example :
    scriptNumber 562949953421312.25 = "562949953421312.3" ∧
      standardNumbers.render 562949953421312.25 = "562949953421312.2" := by
  decide

/-- A number in positional notation is written by the standard exactly if its point is close and
its digits are the even ones. -/
theorem scriptText_positional_iff
    {x : Float} {negative : Bool} {significand : ℕ} {exponent : ℤ} {decimal : Scaled}
    {text : List Char} (parts : Binary.ofFloat x = .finite negative significand exponent)
    (positive : 0 < significand) (shortest : IsShortest significand exponent decimal)
    (written : PositionalText (digitsOf decimal.digits) decimal.point text) :
    ScriptText x (String.ofList (signed negative text)) ↔
      IsClose decimal.point ∧ IsEvenShortest significand exponent decimal := by
  obtain ⟨nonempty, first, noPoint, noExponent⟩ := digits_of_isShortest positive shortest
  constructor
  · intro standard
    have even := isEvenShortest_shortest_toEven (canonical_of_parts parts) positive
    rw [scriptText_iff, render_standardNumbers parts positive] at standard
    generalize (RoundingInterval.around significand exponent).shortest .toEven = other at *
    rcases (eq_renderScaled_standardNumbers_iff other text).mp (signed_injective standard) with
      ⟨close, writtenOther⟩ | ⟨-, writtenOther⟩
    · obtain ⟨nonemptyOther, firstOther, noPointOther, -⟩ :=
        digits_of_isShortest positive even.toIsShortest
      have point : decimal.point = other.point := by
        rw [← pointOf_positionalText written noPoint first nonempty,
          pointOf_positionalText writtenOther noPointOther firstOther nonemptyOther]
      have length := le_antisymm (shortest.fewest _ even.reads) (even.fewest _ shortest.reads)
      have same := eq_positional_of_positionalText nonempty written
      rw [eq_positional_of_positionalText nonemptyOther writtenOther, ← point] at same
      obtain rfl : decimal = other :=
        Scaled.eq_of_digitsOf (positional_injective length same.symm) point
      exact ⟨close, even⟩
    · exact absurd (e_mem_exponentialText writtenOther)
        (e_not_mem_positionalText written noExponent)
  · rintro ⟨close, even⟩
    exact .positional parts positive even close written

/-- How a script shows a number. What is no number, infinite or zero is shown as by the standard.
Any other number is shown in positional notation, with the greater one of two shortest decimals
that are as near: as by the standard if its point is close and these are the even digits. -/
inductive IsShown (x : Float) (text : String) : Prop where
  | special
      (special : ∀ {negative : Bool} {significand : ℕ} {exponent : ℤ},
        Binary.ofFloat x = .finite negative significand exponent → significand = 0)
      (standard : ScriptText x text)
  | number {negative : Bool} {significand : ℕ} {exponent : ℤ} {decimal : Scaled} {body : List Char}
      (parts : Binary.ofFloat x = .finite negative significand exponent)
      (positive : 0 < significand) (shortest : IsShortest significand exponent decimal)
      (greatest : ∀ other, IsShortest significand exponent other → other.value ≤ decimal.value)
      (written : PositionalText (digitsOf decimal.digits) decimal.point body)
      (same : text = String.ofList (signed negative body))
      (standard : ScriptText x text ↔
        IsClose decimal.point ∧ IsEvenShortest significand exponent decimal)

theorem scriptNumber_eq {x : Float} {parts : Binary} (held : Binary.ofFloat x = parts) :
    scriptNumber x = String.ofList (scriptNumbers.renderBinary parts) := by
  rw [scriptNumber, Layout.render, held]

/-- A number other than zero is shown with the digits of its shortest decimal. -/
theorem exists_positionalText
    {x : Float} {negative : Bool} {significand : ℕ} {exponent : ℤ}
    (parts : Binary.ofFloat x = .finite negative significand exponent)
    (positive : 0 < significand) :
    ∃ (decimal : Scaled) (body : List Char), IsShortest significand exponent decimal ∧
      (∀ other, IsShortest significand exponent other → other.value ≤ decimal.value) ∧
      PositionalText (digitsOf decimal.digits) decimal.point body ∧
      scriptNumber x = String.ofList (signed negative body) := by
  have canonical := canonical_of_parts parts
  refine ⟨(RoundingInterval.around significand exponent).shortest scriptNumbers.tie, _,
    isShortest_shortest canonical positive scriptNumbers.tie,
    fun _ rival => value_le_shortest_up canonical positive rival,
    positionalText_positional _ _, ?_⟩
  rw [scriptNumber_eq parts, Layout.renderBinary, if_neg positive.ne']
  cases negative <;> rfl

/-- Every number is shown so. -/
theorem isShown_scriptNumber (x : Float) : IsShown x (scriptNumber x) := by
  cases parts : Binary.ofFloat x with
  | nan =>
      have text : scriptNumber x = "NaN" := (scriptNumber_eq parts).trans rfl
      refine .special (fun other => by rw [parts] at other; cases other) ?_
      rw [text]
      exact .nan parts
  | infinite negative =>
      refine .special (fun other => by rw [parts] at other; cases other) ?_
      cases negative with
      | false =>
          have text : scriptNumber x = "Infinity" := (scriptNumber_eq parts).trans rfl
          rw [text]
          exact .infinity parts
      | true =>
          have text : scriptNumber x = "-Infinity" := (scriptNumber_eq parts).trans rfl
          rw [text]
          exact .negativeInfinity parts
  | finite negative significand exponent =>
      rcases Nat.eq_zero_or_pos significand with rfl | positive
      · have text : scriptNumber x = "0" := by
          rw [scriptNumber_eq parts]
          cases negative <;> rfl
        refine .special (fun other => by rw [parts] at other; cases other; rfl) ?_
        rw [text]
        exact .zero parts
      · obtain ⟨decimal, body, shortest, greatest, written, text⟩ :=
          exists_positionalText parts positive
        refine .number parts positive shortest greatest written text ?_
        rw [text]
        exact scriptText_positional_iff parts positive shortest written

/-- From `10 ^ 21` on the standard uses exponents, and scripts do not. -/
theorem scriptNumber_not_standard :
    scriptNumber 1e21 = "1000000000000000000000" ∧ ScriptText 1e21 "1e+21" ∧
      ¬ScriptText 1e21 (scriptNumber 1e21) := by
  have shown : scriptNumber 1e21 = "1000000000000000000000" := by decide
  have standard : standardNumbers.render 1e21 = "1e+21" := by decide
  refine ⟨shown, (scriptText_iff _ _).mpr standard.symm, ?_⟩
  rw [scriptText_iff, shown, standard]
  decide

end MapBlocks
