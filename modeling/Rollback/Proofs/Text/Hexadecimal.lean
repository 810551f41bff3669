import Mathlib.Algebra.Ring.Nat
import Rollback.CheckpointId

/-!
# Ids as text

A number that fits a width of hexadecimal digits is read back from them, and the groups of an id's
digits are put together again, so the text of an id denotes that id (`ofString?_toString`).
-/

namespace Rollback

namespace Text

theorem length_hexDigits (width n : Nat) : (hexDigits width n).length = width := by
  induction width generalizing n with
  | zero => rfl
  | succ width ih => simp [hexDigits, ih]

theorem ofHexDigits_append (seen : Nat) (front back : List Char) :
    ofHexDigits seen (front ++ back) = (ofHexDigits seen front).bind (ofHexDigits · back) := by
  induction front generalizing seen with
  | nil => rfl
  | cons c rest ih =>
    simp only [List.cons_append, ofHexDigits]
    cases hexValue c <;> simp [bind, ih]

theorem hexValue_digitChar {n : Nat} (small : n < 16) : hexValue (Nat.digitChar n) = some n := by
  revert n
  decide

theorem ofHexDigits_hexDigits {width n : Nat} (fits : n < 16 ^ width) (seen : Nat) :
    ofHexDigits seen (hexDigits width n) = some (seen * 16 ^ width + n) := by
  induction width generalizing n with
  | zero =>
    rw [Nat.pow_zero] at fits
    simp [hexDigits, ofHexDigits, Nat.lt_one_iff.mp fits]
  | succ width ih =>
    have front : n / 16 < 16 ^ width := by
      rw [Nat.div_lt_iff_lt_mul (by decide), ← Nat.pow_succ]
      exact fits
    rw [hexDigits, ofHexDigits_append, ih front, Option.bind_some, ofHexDigits,
      hexValue_digitChar (Nat.mod_lt _ (by decide))]
    simp only [bind, Option.bind_some, ofHexDigits, Option.some.injEq, Nat.pow_succ]
    have parts := Nat.div_add_mod n 16
    rw [Nat.mul_add, ← Nat.mul_assoc, Nat.mul_comm 16 seen, Nat.mul_assoc seen 16,
      Nat.mul_comm 16 (16 ^ width)]
    omega

end Text

namespace CheckpointId

/-- The id whose last digit is that of the number and whose other digits are zeros. -/
def ofDigit (n : Nat) : CheckpointId where
  value := n % 16
  isLt := Nat.lt_trans (Nat.mod_lt n (by decide)) (by decide)

theorem length_toChars (id : CheckpointId) : id.toChars.length = 36 := by
  simp [toChars, group, Text.length_hexDigits]

theorem length_toString (id : CheckpointId) : id.toString.length = 36 := by
  rw [toString, String.length_ofList, length_toChars]

/-- 32 digits, part by part. -/
theorem exists_parts {digits : List Char} (length : digits.length = 32) :
    ∃ a b c d e : List Char, digits = a ++ (b ++ (c ++ (d ++ e))) ∧ a.length = 8 ∧ b.length = 4 ∧
      c.length = 4 ∧ d.length = 4 ∧ e.length = 12 := by
  refine ⟨digits.take 8, (digits.drop 8).take 4, (digits.drop 12).take 4, (digits.drop 16).take 4,
    digits.drop 20, ?_, ?_⟩
  · have join : ∀ n k, (digits.drop n).take k ++ digits.drop (n + k) = digits.drop n := by
      intro n k
      rw [← List.drop_drop, List.take_append_drop]
    have first := join 0 8
    rw [List.drop_zero, Nat.zero_add] at first
    rw [join 16 4, join 12 4, join 8 4, first]
  · simp [length]

theorem ungroup_group {digits : List Char} (length : digits.length = 32) :
    ungroup (group digits) = some digits := by
  have whole : (group digits).length = 36 := by simp [group, length]
  have parts : (group digits).take 8 ++ ((group digits).drop 9).take 4 ++
      ((group digits).drop 14).take 4 ++ ((group digits).drop 19).take 4 ++
      (group digits).drop 24 = digits := by
    obtain ⟨a, b, c, d, e, rfl, ha, hb, hc, hd, he⟩ := exists_parts length
    have grouped : group (a ++ (b ++ (c ++ (d ++ e)))) =
        a ++ '-' :: (b ++ '-' :: (c ++ '-' :: (d ++ '-' :: e))) := by
      simp (disch := omega) [group, List.drop_append, List.drop_of_length_le, ha, hb, hc]
    rw [grouped]
    simp (disch := omega) [List.drop_append, List.drop_of_length_le, ha, hb, hc, hd]
  simp only [ungroup]
  rw [parts, if_pos ⟨whole, rfl⟩]

theorem ofString?_toString (id : CheckpointId) : ofString? id.toString = some id := by
  have length : (Text.hexDigits 32 id.value).length = 32 := Text.length_hexDigits _ _
  have other : id.toChars.length ≠ 32 := by
    rw [length_toChars]
    decide
  rw [ofString?, toString, String.toList_ofList, ofChars?, if_neg other]
  rw [toChars, ungroup_group length, Option.some_or, Option.bind_some, ofDigits?, if_pos length,
    Text.ofHexDigits_hexDigits id.isLt, Option.bind_some]
  simp [id.isLt]

end CheckpointId

end Rollback
