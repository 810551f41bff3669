import Rollback.Proofs.Double.Shortest
import Rollback.Proofs.Json.Numbers

/-!
# Texts of fractions

However its digits and its point are laid out, the text of a number with a fraction is one that is
scanned as a number (`isNumeral_decimalChars`). So a document is scanned past each of its fractions
(`scannedTo_double`), to whatever number that is.
-/

namespace Rollback

namespace Double

open Rollback.Tree (IsNumeral IsPower isNumeral_of_pointed isNumeral_of_whole)

variable {digits : List Char}

theorem isDigit_zero : ∀ c ∈ ['0'], c.isDigit = true := List.forall_mem_singleton.mpr rfl

/-- Zeros behind the digits of a whole number, and one behind the point. -/
theorem isNumeral_zeros (all : ∀ c ∈ digits, c.isDigit = true) (some : digits ≠ [])
    (leading : digits.head? ≠ .some '0') (count : Nat) :
    IsNumeral (digits ++ List.replicate count '0' ++ ".0".toList) := by
  change IsNumeral (digits ++ List.replicate count '0' ++ '.' :: (['0'] ++ []))
  refine isNumeral_of_pointed ?_ (by simp [some]) (Or.inr ?_) isDigit_zero (by simp)
    (Or.inl rfl)
  · intro c member
    obtain digit | zero := List.mem_append.mp member
    · exact all c digit
    · rw [(List.mem_replicate.mp zero).2]
      rfl
  · rwa [List.head?_append, List.head?_eq_some_head some, Option.some_or,
      ← List.head?_eq_some_head some]

/-- The point stands among the digits. -/
theorem isNumeral_split (all : ∀ c ∈ digits, c.isDigit = true)
    (leading : digits.head? ≠ .some '0') {whole : Nat} (positive : 0 < whole)
    (inside : whole < digits.length) :
    IsNumeral (digits.take whole ++ '.' :: digits.drop whole) := by
  rw [← List.append_nil (digits.drop whole)]
  refine isNumeral_of_pointed (fun c member => all c (List.mem_of_mem_take member)) ?_ (Or.inr ?_)
    (fun c member => all c (List.mem_of_mem_drop member)) ?_ (Or.inl rfl)
  · rw [Ne, List.take_eq_nil_iff, ← List.length_eq_zero_iff]
    omega
  · rwa [List.head?_take, if_neg (Nat.ne_of_gt positive)]
  · rw [Ne, List.drop_eq_nil_iff]
    omega

/-- All digits stand behind the point. -/
theorem isNumeral_small (all : ∀ c ∈ digits, c.isDigit = true) (some : digits ≠ []) (count : Nat) :
    IsNumeral ("0.".toList ++ List.replicate count '0' ++ digits) := by
  change IsNumeral (['0'] ++ '.' :: (List.replicate count '0' ++ digits))
  rw [← List.append_nil (List.replicate count '0' ++ digits)]
  refine isNumeral_of_pointed isDigit_zero (by simp) (Or.inl rfl) ?_ (by simp [some]) (Or.inl rfl)
  intro c member
  obtain zero | digit := List.mem_append.mp member
  · rw [(List.mem_replicate.mp zero).2]
    rfl
  · exact all c digit

theorem isPower_exponent (n : Int) :
    IsPower ('e' :: (if n < 0 then '-' else '+') :: Text.decimal n.natAbs) := by
  refine Or.inr ⟨_, _, ?_, Text.decimal_ne_nil _, fun _ => Text.isDigit_of_mem_decimal, rfl⟩
  split
  · exact Or.inr rfl
  · exact Or.inl rfl

/-- One digit in front of the point, and a power of ten. -/
theorem isNumeral_scientific {c : Char} {cs power : List Char}
    (all : ∀ d ∈ c :: cs, d.isDigit = true) (powered : IsPower power) :
    IsNumeral ((match c :: cs with
      | [] => []
      | [c] => [c]
      | c :: cs => c :: '.' :: cs) ++ power) := by
  have first : ∀ d ∈ [c], d.isDigit = true := by simpa using all c List.mem_cons_self
  cases cs with
  | nil => exact isNumeral_of_whole first (by simp) (Or.inl rfl) powered
  | cons d cs =>
    have numeral : IsNumeral ([c] ++ '.' :: (d :: cs ++ power)) :=
      isNumeral_of_pointed first (by simp) (Or.inl rfl)
        (fun e member => all e (List.mem_cons_of_mem _ member)) (by simp) powered
    exact numeral

theorem isNumeral_decimalChars {d : Decimal} (positive : 0 < d.digits) :
    IsNumeral (decimalChars d) := by
  have all : ∀ c ∈ Text.decimal d.digits, c.isDigit = true := fun _ => Text.isDigit_of_mem_decimal
  have leading := Text.head?_decimal_ne positive
  have some := Text.decimal_ne_nil d.digits
  unfold decimalChars
  generalize Text.decimal d.digits = digits at all leading some
  dsimp only
  split
  · split
    · exact isNumeral_zeros all some leading _
    · exact isNumeral_split all leading (by omega) (by omega)
  · split
    · exact isNumeral_small all some _
    · obtain ⟨c, cs, rfl⟩ := List.exists_cons_of_ne_nil some
      exact isNumeral_scientific all (isPower_exponent _)

/-- The text of a number is its sign and a numeral. -/
theorem exists_toChars (x : Double) :
    ∃ negative cs, x.toChars = Tree.sign negative ++ cs ∧ IsNumeral cs := by
  have numeral : IsNumeral (if x.significand = 0 then "0.0".toList else decimalChars x.shortest) := by
    split
    · change IsNumeral (['0'] ++ '.' :: (['0'] ++ []))
      exact isNumeral_of_pointed isDigit_zero (by simp) (Or.inl rfl) isDigit_zero (by simp)
        (Or.inl rfl)
    · exact isNumeral_decimalChars (shortest_positive (Nat.pos_of_ne_zero ‹_›))
  refine ⟨x.isNegative, _, ?_, numeral⟩
  unfold toChars Tree.sign
  dsimp only
  generalize (if x.significand = 0 then "0.0".toList else decimalChars x.shortest) = magnitude
  split <;> simp [*]

end Double

namespace Tree

/-- The number that is read from the text of a number. -/
def ofDouble (x : Double) : Tree :=
  match scanNumber x.toChars with
  | some (l, _) => l.tree
  | none => broken

theorem scan_toChars (x : Double) (steps : Nat) {rest : List Char} (ends : EndsNumber rest) :
    scan (steps + 1) (x.toChars ++ rest) = (ofDouble x, rest) := by
  obtain ⟨negative, cs, text, l, number⟩ := x.exists_toChars
  have alone := number negative [] (by rintro _ ⟨⟩)
  rw [List.append_nil, ← text] at alone
  have followed := number negative rest ends
  rw [← List.append_assoc, ← text] at followed
  rw [scan_number followed, ofDouble, alone]

theorem scannedTo_double {x : Double} (finite : x.isFinite = true) :
    ScannedTo (.double x) (ofDouble x) := by
  intro layout level rest steps ends enough
  rw [Json.chars, if_pos finite] at enough ⊢
  obtain ⟨steps, rfl⟩ : ∃ k, steps = k + 1 := by
    apply Nat.exists_eq_succ_of_ne_zero
    rintro rfl
    -- no text without a character is scanned as a number
    obtain ⟨negative, cs, text, l, number⟩ := x.exists_toChars
    have alone := number negative [] (by rintro _ ⟨⟩)
    rw [List.append_nil, ← text, List.length_eq_zero_iff.mp (Nat.le_zero.mp enough)] at alone
    simp [scanNumber, Text.digitRun] at alone
  exact scan_toChars x steps (endsNumber_of_endsPart ends)

end Tree

end Rollback
