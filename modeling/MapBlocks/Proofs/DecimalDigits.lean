import Mathlib.Data.List.Basic
import Mathlib.Data.List.Induction
import Mathlib.Tactic.Ring
import MapBlocks.Decimal.Layout
import MapBlocks.Decimal.Numeral

/-!
# Decimal digits

The digits of a number spell the number, and no number but zero starts with a
zero.  Zeros before the digits do not count; each zero after them counts ten
times.
-/

namespace MapBlocks.Decimal

theorem valueOf_append (left right : List Char) :
    valueOf 10 (left ++ right) = valueOf 10 left * 10 ^ right.length + valueOf 10 right := by
  induction right using List.reverseRecOn with
  | nil => simp [valueOf]
  | append_singleton others c induction =>
      rw [← List.append_assoc]
      simp only [valueOf, List.foldl_append, List.foldl_cons, List.foldl_nil,
        List.length_append, List.length_singleton, pow_succ] at induction ⊢
      rw [induction]
      ring

theorem valueOf_zeros (count : ℕ) : valueOf 10 (List.replicate count '0') = 0 := by
  induction count with
  | zero => rfl
  | succ count induction =>
      rw [List.replicate_succ', valueOf_append, induction]
      rfl

theorem isDigitOf_of_mem_zeros (count : ℕ) :
    ∀ c ∈ List.replicate count '0', isDigitOf 10 c = true := by
  intro c member
  rw [List.eq_of_mem_replicate member]
  rfl

theorem digitsOf_of_lt {n : ℕ} (small : n < 10) : digitsOf n = [Nat.digitChar n] :=
  Nat.toDigits_of_lt_base small

theorem digitsOf_of_le {n : ℕ} (large : 10 ≤ n) :
    digitsOf n = digitsOf (n / 10) ++ [Nat.digitChar (n % 10)] :=
  Nat.toDigits_of_base_le (by decide) large

theorem digitsOf_ne_nil (n : ℕ) : digitsOf n ≠ [] := Nat.toDigits_ne_nil

theorem code_of_mem_digitsOf {n : ℕ} {c : Char} (member : c ∈ digitsOf n) :
    48 ≤ c.toNat ∧ c.toNat ≤ 57 := by
  have digit : c.isDigit = true := Nat.isDigit_of_mem_toDigits (by decide) (by decide) member
  simp only [Char.isDigit, Bool.and_eq_true, decide_eq_true_eq, ge_iff_le,
    UInt32.le_iff_toNat_le] at digit
  exact digit

theorem isDigitOf_of_mem_digitsOf {n : ℕ} {c : Char} (member : c ∈ digitsOf n) :
    isDigitOf 10 c = true := by
  have code := code_of_mem_digitsOf member
  simp only [isDigitOf, digitValue?, if_pos code, Option.any_some, decide_eq_true_eq]
  omega

theorem digitValue?_digitChar {digit : ℕ} (small : digit < 10) :
    digitValue? (Nat.digitChar digit) = some digit := by
  have all : ∀ digit < 10, digitValue? (Nat.digitChar digit) = some digit := by decide
  exact all digit small

/-- What holds of the digits holds of all numbers if one more digit keeps it. -/
theorem digits_induction
    {motive : ℕ → Prop} (digit : ∀ n < 10, motive n)
    (more : ∀ n, 10 ≤ n → motive (n / 10) → motive n) (n : ℕ) : motive n := by
  induction n using Nat.strong_induction_on with
  | _ n induction =>
      by_cases small : n < 10
      · exact digit n small
      · exact more n (by omega) (induction (n / 10) (by omega))

/-- The digits of a number spell the number. -/
theorem valueOf_digitsOf (n : ℕ) : valueOf 10 (digitsOf n) = n := by
  induction n using digits_induction with
  | digit n small =>
      rw [digitsOf_of_lt small]
      simp [valueOf, digitValue?_digitChar small]
  | more n large induction =>
      have last : n % 10 < 10 := Nat.mod_lt n (by decide)
      rw [digitsOf_of_le large, valueOf_append, induction]
      simp [valueOf, digitValue?_digitChar last]
      omega

/-- No number but zero starts with a zero. -/
theorem head?_digitsOf {n : ℕ} (positive : 0 < n) : (digitsOf n).head? ≠ some '0' := by
  induction n using digits_induction with
  | digit n small =>
      have all : ∀ digit < 10, 0 < digit → Nat.digitChar digit ≠ '0' := by decide
      rw [digitsOf_of_lt small]
      simpa using all n small positive
  | more n large induction =>
      rw [digitsOf_of_le large, List.head?_append_of_ne_nil _ (digitsOf_ne_nil _)]
      exact induction (by omega)

end MapBlocks.Decimal
