import MapBlocks.Json.Token

/-!
# How tokens begin

The first character of a text settles which token starts there.  These equations
take the readers of signs, fractions, numbers and tokens apart by that character.
-/

namespace MapBlocks.Json

theorem takeMinus_of_ne {c : Char} (other : c ≠ '-') (rest : List Char) :
    takeMinus (c :: rest) = (false, c :: rest) := by
  unfold takeMinus
  split <;> simp_all

theorem takeSign_of_ne {c : Char} (minus : c ≠ '-') (plus : c ≠ '+') (rest : List Char) :
    Decimal.takeSign (c :: rest) = (false, c :: rest) := by
  unfold Decimal.takeSign
  split <;> simp_all

theorem fractionPart?_of_ne {c : Char} (other : c ≠ '.') (rest : List Char) :
    fractionPart? (c :: rest) = some ([], c :: rest) := by
  unfold fractionPart?
  split <;> simp_all

/-- A first character that is neither a digit nor a minus sign starts no number. -/
theorem numeral?_of_other
    {c : Char} (minus : c ≠ '-') (digit : Decimal.isDigitOf 10 c = false) (rest : List Char) :
    numeral? (c :: rest) = none := by
  simp [numeral?, takeMinus_of_ne minus, takeDigits, digit, isWholePart]

theorem token?_of_numeral?
    {text tail : List Char} {numeral : Numeral} (read : numeral? text = some (numeral, tail)) :
    token? text = some (.number numeral, tail) := by
  unfold token?
  split
  case h_11 => rw [read, Option.map_some]
  all_goals
    rw [numeral?_of_other (by decide) (by decide)] at read
    cases read

theorem tokens?_of_blank {c : Char} (blank : isBlank c = true) (rest : List Char) :
    tokens? (c :: rest) = tokens? rest := by
  rw [tokens?, if_pos blank]

theorem token?_of_blank {c : Char} (blank : isBlank c = true) (rest : List Char) :
    token? (c :: rest) = none := by
  simp only [isBlank, Bool.or_eq_true, decide_eq_true_eq] at blank
  have number : numeral? (c :: rest) = none := by
    rcases blank with ((rfl | rfl) | rfl) | rfl <;> exact numeral?_of_other (by decide) rfl rest
  have other : token? (c :: rest) = (numeral? (c :: rest)).map (Prod.map Token.number id) := by
    rcases blank with ((rfl | rfl) | rfl) | rfl <;> rfl
  rw [other, number, Option.map_none]

/-- Tokens are read one after the other. -/
theorem tokens?_of_token?
    {text tail : List Char} {token : Token} (read : token? text = some (token, tail)) :
    tokens? text = (tokens? tail).map (token :: ·) := by
  cases text with
  | nil => cases read
  | cons c rest =>
      have visible : ¬isBlank c = true := by
        intro blank
        rw [token?_of_blank blank] at read
        cases read
      rw [tokens?, if_neg visible]
      split
      · rename_i fails
        rw [read] at fails
        cases fails
      · rename_i found foundTail found?
        rw [read] at found?
        cases found?
        rfl

theorem tokens?_of_token?_eq_none
    {c : Char} (visible : isBlank c = false) {rest : List Char}
    (unread : token? (c :: rest) = none) : tokens? (c :: rest) = none := by
  rw [tokens?, if_neg (by simp [visible])]
  split
  · rfl
  · rename_i read
    rw [unread] at read
    cases read

end MapBlocks.Json
