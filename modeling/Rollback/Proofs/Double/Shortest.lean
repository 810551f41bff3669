import Mathlib.Algebra.Order.Ring.Nat
import Rollback.Double.Shortest

/-!
# The shortest decimal of a number

The shortest decimal that rounds to a positive number is positive itself (`shortest_positive`): each
decimal in the interval is, and so is the one at which the search gives up.
-/

namespace Rollback.Double

/-! ## Grids -/

namespace Ratio

variable {r : Ratio} {k : Int}

theorem floor_positive_iff : 0 < r.floor k ↔
    0 < r.den ∧ r.den * 10 ^ k.toNat ≤ r.num * 10 ^ (-k).toNat := by
  unfold floor
  split
  · have none : (-k).toNat = 0 := by omega
    rw [Nat.div_pos_iff, none, pow_zero, Nat.mul_one]
    exact and_congr_left' (Nat.mul_pos_iff_of_pos_right (Nat.pow_pos (by decide)))
  · have none : k.toNat = 0 := by omega
    have same : k.natAbs = (-k).toNat := by omega
    rw [Nat.div_pos_iff, none, pow_zero, Nat.mul_one, same]
    rfl

/-- A ratio that reaches a grid reaches each finer one. -/
theorem floor_positive (reaches : 0 < r.floor k) {finer : Int} (below : finer ≤ k) :
    0 < r.floor finer := by
  rw [floor_positive_iff] at reaches ⊢
  refine ⟨reaches.1, ?_⟩
  calc r.den * 10 ^ finer.toNat
      ≤ r.den * 10 ^ k.toNat := Nat.mul_le_mul_left _ (Nat.pow_le_pow_right (by decide) (by omega))
    _ ≤ r.num * 10 ^ (-k).toNat := reaches.2
    _ ≤ r.num * 10 ^ (-finer).toNat :=
      Nat.mul_le_mul_left _ (Nat.pow_le_pow_right (by decide) (by omega))

theorem magnitude_reaches (reaches : 0 < r.floor k) (fuel : Nat) :
    0 < r.floor (r.magnitude fuel k) := by
  induction fuel generalizing k with
  | zero => exact reaches
  | succ fuel ih =>
    rw [magnitude]
    split
    · exact reaches
    · exact ih (Nat.pos_of_ne_zero ‹_›)

end Ratio

variable {x : Double}

/-- Seven decimal digits hold 23 binary ones. -/
theorem two_pow_le {m n k : Nat} (short : n ≤ 23 * m) (wide : 7 * m ≤ k) : 2 ^ n ≤ 10 ^ k := by
  calc 2 ^ n
      ≤ 2 ^ (23 * m) := Nat.pow_le_pow_right (by decide) short
    _ = (2 ^ 23) ^ m := pow_mul 2 23 m
    _ ≤ (10 ^ 7) ^ m := Nat.pow_le_pow_left (by decide) m
    _ = 10 ^ (7 * m) := (pow_mul 10 7 m).symm
    _ ≤ 10 ^ k := Nat.pow_le_pow_right (by decide) wide

/-- Even the least positive number reaches the grid at which the search for its first digit
starts. -/
theorem floor_ofBinary_positive (some : 0 < x.significand) :
    0 < (Ratio.ofBinary x.significand x.exponent).floor (-330) := by
  have least : -1074 ≤ x.exponent := by
    unfold exponent
    split <;> omega
  rw [Ratio.floor_positive_iff]
  unfold Ratio.ofBinary
  split
  · refine ⟨Nat.one_pos, ?_⟩
    exact Nat.mul_le_mul (Nat.mul_pos some (Nat.pow_pos (by decide)))
      (Nat.pow_le_pow_right (by decide) (by decide))
  · refine ⟨Nat.pow_pos (by decide), ?_⟩
    calc 2 ^ x.exponent.natAbs * 10 ^ (-330 : Int).toNat
        = 2 ^ x.exponent.natAbs := Nat.mul_one _
      _ ≤ 10 ^ (- -330 : Int).toNat := two_pow_le (m := 47) (by omega) (by decide)
      _ ≤ x.significand * 10 ^ (- -330 : Int).toNat := Nat.le_mul_of_pos_left _ some

/-! ## The search -/

theorem interval_low_positive (some : 0 < x.significand) : 0 < x.interval.low.num := by
  have numerator : 0 < 4 * x.significand -
      if x.fractionField = 0 ∧ 1 < x.exponentField then 1 else 2 := by
    split <;> omega
  simp only [interval, Ratio.ofBinary]
  split
  · exact Nat.mul_pos numerator (Nat.pow_pos (by decide))
  · exact numerator

theorem positive_of_contains (some : 0 < x.significand) {d : Decimal}
    (inside : x.interval.contains d = true) : 0 < d.digits := by
  have low := interval_low_positive some
  by_contra none
  have zero : d.digits = 0 := by omega
  have below : d.compare x.interval.low = .lt := by
    unfold Decimal.compare
    split
    · rw [zero, Nat.zero_mul, Nat.zero_mul]
      exact Nat.compare_eq_lt.mpr low
    · rw [zero, Nat.zero_mul]
      exact Nat.compare_eq_lt.mpr (Nat.mul_pos low (Nat.pow_pos (by decide)))
  rw [Interval.contains, below] at inside
  contradiction

theorem positive_of_onGrid (some : 0 < x.significand) {r : Ratio} {k : Int} {d : Decimal}
    (hit : onGrid r x.interval k = .some d) : 0 < d.digits := by
  unfold onGrid at hit
  dsimp only at hit
  split at hit
  · rename_i lower _
    split at hit
    · cases hit
      exact Nat.succ_pos _
    · cases hit
      exact positive_of_contains some lower
  · rename_i lower _
    cases hit
    exact positive_of_contains some lower
  · cases hit
    exact Nat.succ_pos _
  · cases hit

theorem search_positive (some : 0 < x.significand) {r : Ratio} {p : Int}
    (reaches : 0 < r.floor p) (fuel digits : Nat) :
    0 < (search r x.interval p fuel digits).digits := by
  induction fuel generalizing digits with
  | zero => exact r.floor_positive reaches (by omega)
  | succ fuel ih =>
    rw [search]
    split
    · exact positive_of_onGrid some ‹_›
    · exact ih _

theorem strip_positive {d : Decimal} (positive : 0 < d.digits) (fuel : Nat) :
    0 < (d.strip fuel).digits := by
  induction fuel generalizing d with
  | zero => exact positive
  | succ fuel ih =>
    rw [Decimal.strip]
    split
    · exact ih (by dsimp only; omega)
    · exact positive

theorem shortest_positive (some : 0 < x.significand) : 0 < x.shortest.digits := by
  have reaches := Ratio.magnitude_reaches (floor_ofBinary_positive some) 700
  exact strip_positive (search_positive some reaches 17 1) 20

end Rollback.Double
