import Mathlib.Algebra.Ring.Nat
import Rollback.Text.Numeral

/-!
# Decimal texts

A number is read back from its digits, with or without zeros in front, and a run of digits ends
where a character that is no digit follows.
-/

namespace Rollback.Text

theorem ofDecimal_eq (digits : List Char) : ofDecimal digits = Nat.ofDigitChars 10 digits 0 := rfl

theorem isDigit_of_mem_decimal {n : Nat} {c : Char} (member : c ∈ decimal n) : c.isDigit = true :=
  Nat.isDigit_of_mem_toDigits (by decide) (by decide) member

theorem isDigit_of_mem_padded {width n : Nat} {c : Char} (member : c ∈ padded width n) :
    c.isDigit = true := by
  obtain zero | digit := List.mem_append.mp member
  · rw [(List.mem_replicate.mp zero).2]
    rfl
  · exact isDigit_of_mem_decimal digit

theorem ofDecimal_decimal (n : Nat) : ofDecimal (decimal n) = n :=
  Nat.ofDigitChars_ten_toDigits

theorem ofDecimal_padded (width n : Nat) : ofDecimal (padded width n) = n := by
  rw [ofDecimal_eq, padded, Nat.ofDigitChars_append, Nat.ofDigitChars_replicate_zero, Nat.mul_zero]
  exact ofDecimal_decimal n

theorem length_padded {width n : Nat} (some : 0 < width) (fits : n < 10 ^ width) :
    (padded width n).length = width := by
  have short : (decimal n).length ≤ width := (Nat.length_toDigits_le_iff (by decide) some).mpr fits
  rw [padded, List.length_append, List.length_replicate, Nat.sub_add_cancel short]

theorem padded_ne_nil (width n : Nat) : padded width n ≠ [] := by
  simp [padded, decimal_ne_nil]

/-- The first of what follows is no digit. -/
def EndsRun (rest : List Char) : Prop := ∀ c ∈ rest.head?, c.isDigit = false

theorem digitRun_of_endsRun {digits rest : List Char} (all : ∀ c ∈ digits, c.isDigit = true)
    (ends : EndsRun rest) : digitRun (digits ++ rest) = (digits, rest) := by
  have none : rest.takeWhile Char.isDigit = [] ∧ rest.dropWhile Char.isDigit = rest := by
    cases rest with
    | nil => exact ⟨rfl, rfl⟩
    | cons c rest =>
      have other := ends c rfl
      simp [other]
  rw [digitRun, List.takeWhile_append_of_pos all, List.dropWhile_append_of_pos all, none.1, none.2,
    List.append_nil]

/-- A run of exactly as many digits as are wanted. -/
theorem digitRunUpTo_append {width : Nat} {digits rest : List Char} (length : digits.length = width)
    (all : ∀ c ∈ digits, c.isDigit = true) :
    digitRunUpTo width (digits ++ rest) = (digits, rest) := by
  subst length
  have same : digits.takeWhile Char.isDigit = digits := by
    have whole : (digits ++ []).takeWhile Char.isDigit = digits ++ [] :=
      List.takeWhile_append_of_pos all
    simpa using whole
  simp only [digitRunUpTo]
  rw [List.take_left, same, List.drop_left]

end Rollback.Text
