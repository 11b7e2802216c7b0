import MapBlocks.Json.Number

/-!
# JSON tokens

The first stage of reading: a text is divided into tokens by the strict grammar of JSON. Strings
are kept as they are written, so that a lone surrogate is a fault only where the string is used.
-/

namespace MapBlocks.Json

/-- An element of a written string: a character, or an escape for a 16-bit unit. -/
inductive Piece where
  | char (c : Char)
  | unit (code : Nat)
  deriving DecidableEq, Repr

inductive Token where
  | null
  | bool (value : Bool)
  | number (numeral : Numeral)
  | string (pieces : List Piece)
  | arrayOpen
  | arrayClose
  | objectOpen
  | objectClose
  | comma
  | colon
  deriving DecidableEq, Repr

/-- The blanks of JSON: space, tab, line feed and carriage return. -/
def isBlank (c : Char) : Bool := c = ' ' || c = '\t' || c = '\n' || c = '\r'

/-- The unit of an escape with four hexadecimal digits. -/
def unitOf? (a b c d : Char) : Option Nat := Decimal.natural? 16 [a, b, c, d]

/-- The character of a one-letter escape. -/
def escaped? : Char → Option Char
  | '"' => some '"'
  | '\\' => some '\\'
  | '/' => some '/'
  | 'b' => some '\x08'
  | 'f' => some '\x0c'
  | 'n' => some '\n'
  | 'r' => some '\r'
  | 't' => some '\t'
  | _ => none

/-- Reads a string up to its closing quotation mark. -/
def pieces? : List Char → Option (List Piece × List Char)
  | [] => none
  | '"' :: rest => some ([], rest)
  | '\\' :: 'u' :: a :: b :: c :: d :: rest => do
      let code ← unitOf? a b c d
      let (pieces, tail) ← pieces? rest
      some (.unit code :: pieces, tail)
  | '\\' :: c :: rest => do
      let plain ← escaped? c
      let (pieces, tail) ← pieces? rest
      some (.char plain :: pieces, tail)
  | c :: rest =>
      if c.toNat < 32 ∨ c = '\\' then none
      else do
        let (pieces, tail) ← pieces? rest
        some (.char c :: pieces, tail)

def takeDigits (text : List Char) : List Char × List Char :=
  (text.takeWhile (Decimal.isDigitOf 10), text.dropWhile (Decimal.isDigitOf 10))

def exponentPart? : List Char → Option (Option Int × List Char)
  | [] => some (none, [])
  | c :: rest =>
      if c = 'e' ∨ c = 'E' then
        let (negative, unsigned) := Decimal.takeSign rest
        let (digits, tail) := takeDigits unsigned
        if digits.isEmpty then none
        else
          let magnitude : Int := Decimal.valueOf 10 digits
          some (some (if negative then -magnitude else magnitude), tail)
      else some (none, c :: rest)

/-- The optional fraction of a number: a point with at least one digit after it. -/
def fractionPart? : List Char → Option (List Char × List Char)
  | '.' :: rest =>
      let (digits, tail) := takeDigits rest
      if digits.isEmpty then none else some (digits, tail)
  | text => some ([], text)

/-- The text after an optional minus sign, and whether there is one. -/
def takeMinus : List Char → Bool × List Char
  | '-' :: rest => (true, rest)
  | text => (false, text)

/-- Whether digits may stand before the point: a zero is the first of them only if it is the only
one. -/
def isWholePart (digits : List Char) : Bool :=
  !digits.isEmpty && !(digits.head? == some '0' && 1 < digits.length)

def numeral? (text : List Char) : Option (Numeral × List Char) := do
  let (negative, unsigned) := takeMinus text
  let (whole, rest) := takeDigits unsigned
  if isWholePart whole then
    let (fraction, rest) ← fractionPart? rest
    let (exponent?, rest) ← exponentPart? rest
    some (⟨negative, whole, fraction, exponent?⟩, rest)
  else none

/-- Reads one token from a text that does not start with a blank. -/
def token? : List Char → Option (Token × List Char)
  | '[' :: rest => some (.arrayOpen, rest)
  | ']' :: rest => some (.arrayClose, rest)
  | '\x7b' :: rest => some (.objectOpen, rest)
  | '\x7d' :: rest => some (.objectClose, rest)
  | ',' :: rest => some (.comma, rest)
  | ':' :: rest => some (.colon, rest)
  | '"' :: rest => (pieces? rest).map fun (pieces, tail) => (.string pieces, tail)
  | 'n' :: 'u' :: 'l' :: 'l' :: rest => some (.null, rest)
  | 't' :: 'r' :: 'u' :: 'e' :: rest => some (.bool true, rest)
  | 'f' :: 'a' :: 'l' :: 's' :: 'e' :: rest => some (.bool false, rest)
  | text => (numeral? text).map fun (numeral, tail) => (.number numeral, tail)

/-- A string takes at least its closing quotation mark. -/
theorem length_of_pieces? {text tail : List Char} {pieces : List Piece}
    (read : pieces? text = some (pieces, tail)) : tail.length < text.length := by
  fun_induction pieces? text generalizing pieces tail with
  | case1 => simp at read
  | case2 rest => simp_all
  | case3 a b c d rest ih =>
      simp only [Option.bind_eq_bind, Option.bind_eq_some_iff, Option.some.injEq, Prod.mk.injEq,
        Prod.exists] at read
      obtain ⟨_, _, _, _, inner, rfl, rfl⟩ := read
      have := ih inner
      simp only [List.length_cons]
      omega
  | case4 c rest _ ih =>
      simp only [Option.bind_eq_bind, Option.bind_eq_some_iff, Option.some.injEq, Prod.mk.injEq,
        Prod.exists] at read
      obtain ⟨_, _, _, _, inner, rfl, rfl⟩ := read
      have := ih inner
      simp only [List.length_cons]
      omega
  | case5 => simp at read
  | case6 c rest _ _ _ _ ih =>
      simp only [Option.bind_eq_bind, Option.bind_eq_some_iff, Option.some.injEq, Prod.mk.injEq,
        Prod.exists] at read
      obtain ⟨_, _, inner, rfl, rfl⟩ := read
      have := ih inner
      simp only [List.length_cons]
      omega

theorem takeDigits_append (text : List Char) : (takeDigits text).1 ++ (takeDigits text).2 = text :=
  List.takeWhile_append_dropWhile

theorem length_takeDigits (text : List Char) :
    (takeDigits text).1.length + (takeDigits text).2.length = text.length := by
  rw [← List.length_append, takeDigits_append]

theorem length_takeSign_le (text : List Char) :
    (Decimal.takeSign text).2.length ≤ text.length := by
  unfold Decimal.takeSign
  split <;> simp

theorem length_of_exponentPart? {text tail : List Char} {exponent? : Option Int}
    (read : exponentPart? text = some (exponent?, tail)) : tail.length ≤ text.length := by
  unfold exponentPart? at read
  split at read
  · simp_all
  · rename_i c rest
    split at read
    · have digits := length_takeDigits (Decimal.takeSign rest).2
      have sign := length_takeSign_le rest
      simp only [Option.ite_none_left_eq_some, Option.some.injEq, Prod.mk.injEq] at read
      obtain ⟨_, _, rfl⟩ := read
      simp only [List.length_cons]
      omega
    · simp_all

theorem length_of_fractionPart? {text tail digits : List Char}
    (read : fractionPart? text = some (digits, tail)) : tail.length ≤ text.length := by
  unfold fractionPart? at read
  split at read
  · rename_i rest
    have := length_takeDigits rest
    simp only [Option.ite_none_left_eq_some, Option.some.injEq, Prod.mk.injEq] at read
    obtain ⟨_, _, rfl⟩ := read
    simp only [List.length_cons]
    omega
  · simp_all

theorem length_takeMinus_le (text : List Char) : (takeMinus text).2.length ≤ text.length := by
  unfold takeMinus
  split <;> simp

/-- A number takes at least one digit. -/
theorem length_of_numeral? {text tail : List Char} {numeral : Numeral}
    (read : numeral? text = some (numeral, tail)) : tail.length < text.length := by
  simp only [numeral?, Option.bind_eq_bind, Option.ite_none_right_eq_some,
    Option.bind_eq_some_iff, Option.some.injEq, Prod.mk.injEq, Prod.exists] at read
  obtain ⟨whole, _, afterFraction, fraction, _, _, exponent, _, rfl⟩ := read
  have := length_of_fractionPart? fraction
  have := length_of_exponentPart? exponent
  have := length_takeDigits (takeMinus text).2
  have := length_takeMinus_le text
  have : 0 < (takeDigits (takeMinus text).2).1.length := by
    cases digits : (takeDigits (takeMinus text).2).1 with
    | nil => simp [isWholePart, digits] at whole
    | cons => simp
  omega

theorem length_of_token? {text tail : List Char} {token : Token}
    (read : token? text = some (token, tail)) : tail.length < text.length := by
  unfold token? at read
  split at read
  case h_7 =>
    simp only [Option.map_eq_some_iff, Prod.mk.injEq, Prod.exists] at read
    obtain ⟨_, _, inner, _, rfl⟩ := read
    have := length_of_pieces? inner
    simp only [List.length_cons]
    omega
  case h_11 =>
    simp only [Option.map_eq_some_iff, Prod.mk.injEq, Prod.exists] at read
    obtain ⟨_, _, inner, _, rfl⟩ := read
    exact length_of_numeral? inner
  all_goals
    simp only [Option.some.injEq, Prod.mk.injEq] at read
    obtain ⟨_, rfl⟩ := read
    simp only [List.length_cons]
    omega

def tokens? : List Char → Option (List Token)
  | [] => some []
  | c :: rest =>
      if isBlank c then tokens? rest
      else match _ : token? (c :: rest) with
        | none => none
        | some (token, tail) => (tokens? tail).map (token :: ·)
termination_by text => text.length
decreasing_by
  · simp
  · exact length_of_token? (by assumption)

end MapBlocks.Json
