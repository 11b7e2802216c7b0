import MapBlocks.Json.Printer
import MapBlocks.Json.Reader

/-!
# Strings in JSON texts

A written string reads back as the string, up to its closing quotation mark and
not further.  Control characters without an escape of their own come back as
numbered units, which are far below the surrogates.
-/

namespace MapBlocks.Json

/-- How one character of a string reads after it has been written. -/
def Piece.ofChar (c : Char) : Piece :=
  if c.toNat < 32 ∧ c ∉ ['\n', '\r', '\t', '\x08', '\x0c'] then .unit c.toNat else .char c

/-- How a string reads after it has been written. -/
def writtenPieces (text : List Char) : List Piece := text.map Piece.ofChar

theorem pieces?_of_ordinary
    {c : Char} (quotation : c ≠ '"') (backslash : c ≠ '\\') (printable : 32 ≤ c.toNat)
    (rest : List Char) :
    pieces? (c :: rest) = (pieces? rest).map (Prod.map (Piece.char c :: ·) id) := by
  have passes : ¬(c.toNat < 32 ∨ c = '\\') := by
    rintro (control | same)
    · omega
    · exact backslash same
  rw [pieces?, if_neg passes]
  · cases pieces? rest <;> rfl
  · exact quotation
  · intro a b c d others same
    exact absurd same backslash
  · intro letter others same
    exact absurd same backslash

theorem pieces?_of_letter
    {letter plain : Char} (escape : escaped? letter = some plain) (rest : List Char) :
    pieces? ('\\' :: letter :: rest) =
      (pieces? rest).map (Prod.map (Piece.char plain :: ·) id) := by
  have other : letter ≠ 'u' := by
    rintro rfl
    cases escape
  rw [pieces?, escape]
  · cases pieces? rest <;> rfl
  · intro a b c d others same
    exact absurd same other

theorem pieces?_of_unit
    {a b c d : Char} {code : Nat} (unit : unitOf? a b c d = some code) (rest : List Char) :
    pieces? ('\\' :: 'u' :: a :: b :: c :: d :: rest) =
      (pieces? rest).map (Prod.map (Piece.unit code :: ·) id) := by
  rw [pieces?, unit]
  cases pieces? rest <;> rfl

theorem unitOf?_hexDigit {code : Nat} (control : code < 32) :
    unitOf? '0' '0' (hexDigit (code / 16)) (hexDigit (code % 16)) = some code := by
  have all : ∀ code < 32,
      unitOf? '0' '0' (hexDigit (code / 16)) (hexDigit (code % 16)) = some code := by decide
  exact all code control

/-- Each character is written so that it reads as one piece. -/
theorem pieces?_escapeChar_append (c : Char) (rest : List Char) :
    pieces? (escapeChar c ++ rest) =
      (pieces? rest).map (Prod.map (Piece.ofChar c :: ·) id) := by
  by_cases quotation : c = '"'
  · subst c
    exact pieces?_of_letter rfl rest
  by_cases backslash : c = '\\'
  · subst c
    exact pieces?_of_letter rfl rest
  by_cases lettered : c ∈ ['\n', '\r', '\t', '\x08', '\x0c']
  · simp only [List.mem_cons, List.not_mem_nil, or_false] at lettered
    rcases lettered with rfl | rfl | rfl | rfl | rfl <;> exact pieces?_of_letter rfl rest
  have apart : c ≠ '\n' ∧ c ≠ '\r' ∧ c ≠ '\t' ∧ c.toNat ≠ 8 ∧ c.toNat ≠ 12 := by
    simp only [List.mem_cons, List.not_mem_nil, or_false, not_or] at lettered
    obtain ⟨lineFeed, carriage, tab, backspace, formFeed⟩ := lettered
    exact ⟨lineFeed, carriage, tab, fun same => backspace (Char.toNat_inj.mp same),
      fun same => formFeed (Char.toNat_inj.mp same)⟩
  by_cases control : c.toNat < 32
  · have numbered : Piece.ofChar c = .unit c.toNat := if_pos ⟨control, lettered⟩
    have written : escapeChar c =
        ['\\', 'u', '0', '0', hexDigit (c.toNat / 16), hexDigit (c.toNat % 16)] := by
      simp [escapeChar, quotation, backslash, apart, control]
    rw [numbered, written]
    exact pieces?_of_unit (unitOf?_hexDigit control) rest
  · have plain : Piece.ofChar c = .char c := if_neg fun numbered => control numbered.1
    have written : escapeChar c = [c] := by
      simp [escapeChar, quotation, backslash, apart, control]
    rw [plain, written]
    exact pieces?_of_ordinary quotation backslash (Nat.le_of_not_lt control) rest

/-- A written string is read up to its closing quotation mark. -/
theorem pieces?_escaped (text rest : List Char) :
    pieces? (text.flatMap escapeChar ++ '"' :: rest) = some (writtenPieces text, rest) := by
  induction text with
  | nil => rfl
  | cons c others induction =>
      rw [List.flatMap_cons, List.append_assoc, pieces?_escapeChar_append, induction]
      rfl

theorem token?_quote (text rest : List Char) :
    token? (quote text ++ rest) = some (.string (writtenPieces text), rest) := by
  have body := pieces?_escaped text rest
  change (pieces? ((text.flatMap escapeChar ++ ['"']) ++ rest)).map _ = _
  rw [List.append_assoc, List.singleton_append, body]
  rfl

theorem textOf?_of_unit
    {code : Nat} (control : code < 32) (rest : List Piece) :
    textOf? (.unit code :: rest) = (textOf? rest).map (Char.ofNat code :: ·) := by
  have surrogate : ¬(0xD800 ≤ code ∧ code < 0xDC00) := by omega
  have lone : ¬(0xDC00 ≤ code ∧ code < 0xE000) := by omega
  have either : ¬(0xD800 ≤ code ∧ code < 0xE000) := by omega
  match rest with
  | [] => simp [textOf?, either]
  | .char c :: others => simp [textOf?, either]
  | .unit low :: others => rw [textOf?, if_neg surrogate, if_neg lone]

/-- The pieces of a written string spell the string. -/
theorem textOf?_writtenPieces (text : List Char) :
    textOf? (writtenPieces text) = some text := by
  induction text with
  | nil => rfl
  | cons c rest induction =>
      change textOf? (Piece.ofChar c :: writtenPieces rest) = some (c :: rest)
      unfold Piece.ofChar
      split
      · rename_i numbered
        rw [textOf?_of_unit numbered.1, induction, Option.map_some, Char.ofNat_toNat]
      · rw [textOf?, induction, Option.map_some]

end MapBlocks.Json
