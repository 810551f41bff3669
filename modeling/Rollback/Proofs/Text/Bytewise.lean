import Mathlib.Data.String.Basic

/-!
# Names as bytes

Names are ordered by their code points. The encoding of texts keeps this order, so it is also the
order of the bytes (`bytes_le_iff`).
-/

namespace Rollback.Text

/-- The bytes of a name. -/
def bytes (name : String) : List UInt8 := name.toByteArray.data.toList

theorem bytes_eq (name : String) : bytes name = name.toList.flatMap String.utf8EncodeChar := by
  rw [bytes, ← String.utf8Encode_toList, List.utf8Encode]
  simp

/-- What stands in the bytes of an encoding: groups of six bits. -/
theorem six_bit_digits (n : Nat) :
    n = 262144 * (n / 262144) + 4096 * (n / 4096 % 64) + 64 * (n / 64 % 64) + n % 64 := by
  omega

/-- The encodings of two characters differ, and the first byte in which they do tells which
character comes first. -/
theorem encode_lt {c d : Char} (less : c < d) (x y : List UInt8) :
    String.utf8EncodeChar c ++ x < String.utf8EncodeChar d ++ y := by
  have valid : d.val.toNat < 0xd800 ∨ (0xdfff < d.val.toNat ∧ d.val.toNat < 0x110000) := d.valid
  have less : c.val.toNat < d.val.toNat := less
  have lower := six_bit_digits c.val.toNat
  have upper := six_bit_digits d.val.toNat
  simp only [String.utf8EncodeChar]
  generalize c.val.toNat = m at *
  generalize d.val.toNat = n at *
  -- one case for each pair of lengths
  repeat' split
  all_goals
    simp (disch := omega) only [List.cons_append, List.nil_append, List.cons_lt_cons_iff,
      UInt8.lt_iff_toNat_lt, ← UInt8.toNat_inj, UInt8.toNat_ofNat', Nat.reducePow,
      Nat.mod_eq_of_lt]
    omega

theorem encode_all_lt {cs ds : List Char} (less : cs < ds) :
    cs.flatMap String.utf8EncodeChar < ds.flatMap String.utf8EncodeChar := by
  induction less with
  | nil =>
    rw [List.flatMap_nil, List.flatMap_cons]
    cases encoded : String.utf8EncodeChar _ with
    | nil => exact absurd encoded String.utf8EncodeChar_ne_nil
    | cons byte rest => exact List.nil_lt_cons _ _
  | rel less =>
    rw [List.flatMap_cons, List.flatMap_cons]
    exact encode_lt less _ _
  | cons _ ih =>
    rw [List.flatMap_cons, List.flatMap_cons]
    generalize String.utf8EncodeChar _ = front
    induction front with
    | nil => exact ih
    | cons byte rest keeps => exact List.cons_lt_cons_self.mpr keeps

theorem bytes_lt_of_lt {a b : String} (less : a < b) : bytes a < bytes b := by
  rw [bytes_eq, bytes_eq]
  exact encode_all_lt (String.lt_iff_toList_lt.mp less)

theorem bytes_lt_iff {a b : String} : bytes a < bytes b ↔ a < b := by
  constructor
  · intro less
    obtain less' | rfl | greater := lt_trichotomy a b
    · exact less'
    · exact absurd less (List.lt_irrefl _)
    · exact absurd less (List.lt_asymm (bytes_lt_of_lt greater))
  · exact bytes_lt_of_lt

/-- Ordered as names and ordered by their bytes is the same. -/
theorem bytes_le_iff {a b : String} : bytes a ≤ bytes b ↔ a ≤ b := by
  rw [← List.not_lt, bytes_lt_iff, not_lt]

end Rollback.Text
