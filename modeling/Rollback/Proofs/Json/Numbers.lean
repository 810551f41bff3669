import Rollback.Proofs.Json.Scanning
import Rollback.Proofs.Text.Decimal

/-!
# Written numbers are scanned

A number is scanned part by part (`scanNumber_parts`): the whole part ends where no digit follows,
and a fraction or a power is looked for only where its mark stands. A whole number that fits a value
is read back as it was written (`scannedTo_integer`).
-/

namespace Rollback

namespace Text

/-- No number but zero is written with a zero in front. -/
theorem head?_decimal_ne {n : Nat} (positive : 0 < n) : (decimal n).head? ≠ some '0' := by
  induction n using Nat.strongRecOn with
  | ind n ih =>
    by_cases small : n < 10
    · rw [decimal, Nat.toDigits_of_lt_base small]
      have digits : ∀ n < 10, 0 < n → [n.digitChar].head? ≠ some '0' := by decide
      exact digits n small positive
    · have large : 10 ≤ n := Nat.le_of_not_lt small
      rw [decimal, Nat.toDigits_of_base_le (by decide) large, List.head?_append,
        List.head?_eq_some_head Nat.toDigits_ne_nil, Option.some_or,
        ← List.head?_eq_some_head Nat.toDigits_ne_nil]
      exact ih (n / 10) (Nat.div_lt_self positive (by decide)) (Nat.div_pos large (by decide))

end Text

namespace Tree

open Text (EndsRun)

/-- What may follow a number. -/
def EndsNumber (rest : List Char) : Prop :=
  ∀ c ∈ rest.head?, c.isDigit = false ∧ c ≠ '.' ∧ c ≠ 'e' ∧ c ≠ 'E'

theorem EndsNumber.endsRun {rest : List Char} (ends : EndsNumber rest) : EndsRun rest :=
  fun c first => (ends c first).1

theorem endsNumber_of_endsPart {rest : List Char} (ends : EndsPart rest) : EndsNumber rest := by
  intro c first
  obtain space | rfl | rfl | rfl := ends c first
  · simp only [isSpace, Bool.or_eq_true, decide_eq_true_eq] at space
    obtain ((rfl | rfl) | rfl) | rfl := space <;> decide
  all_goals decide

/-! ## Parts of a number -/

theorem scanFraction_none {rest : List Char} (ends : EndsNumber rest) :
    scanFraction rest = some ([], rest) := by
  unfold scanFraction
  split
  · exact absurd rfl (ends _ rfl).2.1
  · rfl

theorem scanFraction_digits {digits rest : List Char} (all : ∀ c ∈ digits, c.isDigit = true)
    (some : digits ≠ []) (ends : EndsRun rest) :
    scanFraction ('.' :: (digits ++ rest)) = .some (digits, rest) := by
  rw [scanFraction, Text.digitRun_of_endsRun all ends]
  simp [some]

theorem scanPower_none {rest : List Char} (ends : EndsNumber rest) :
    scanPower rest = some (none, rest) := by
  unfold scanPower
  split
  · exact absurd rfl (ends _ rfl).2.2.1
  · exact absurd rfl (ends _ rfl).2.2.2
  · rfl

/-- A power is written with its sign. -/
theorem exists_scanPower {digits : List Char} (all : ∀ c ∈ digits, c.isDigit = true)
    (some : digits ≠ []) {sign : Char} (signed : sign = '+' ∨ sign = '-') :
    ∃ power, ∀ rest, EndsRun rest →
      scanPower ('e' :: sign :: (digits ++ rest)) = .some (.some power, rest) := by
  obtain rfl | rfl := signed
  · refine ⟨1 * Text.ofDecimal digits, fun rest ends => ?_⟩
    simp only [scanPower, Text.digitRun_of_endsRun all ends]
    simp [some]
  · refine ⟨-1 * Text.ofDecimal digits, fun rest ends => ?_⟩
    simp only [scanPower, Text.digitRun_of_endsRun all ends]
    simp [some]

def sign (negative : Bool) : List Char := if negative then ['-'] else []

theorem scanNumber_parts {whole behind fraction middle rest : List Char} {power : Option Int}
    (all : ∀ c ∈ whole, c.isDigit = true) (some : whole ≠ [])
    (leading : whole.length = 1 ∨ whole.head? ≠ .some '0') (ends : EndsRun behind)
    (second : scanFraction behind = .some (fraction, middle))
    (third : scanPower middle = .some (power, rest)) (negative : Bool) :
    scanNumber (sign negative ++ (whole ++ behind)) =
      .some (⟨negative, whole, fraction, power⟩, rest) := by
  have run := Text.digitRun_of_endsRun all ends
  have front : ¬ (whole.isEmpty = true ∨ 1 < whole.length ∧ whole.head? = .some '0') := by
    rintro (empty | ⟨longer, zero⟩)
    · exact some (List.isEmpty_iff.mp empty)
    · exact leading.elim (Nat.ne_of_gt longer) (absurd zero)
  cases negative with
  | true =>
    simp only [sign, if_true, List.singleton_append, scanNumber, run, if_neg front, second,
      Option.bind_eq_bind, Option.bind_some, third]
    rfl
  | false =>
    have plain : ∀ cs, whole ++ behind ≠ '-' :: cs := by
      intro cs same
      obtain ⟨c, others, rfl⟩ := List.exists_cons_of_ne_nil some
      cases same
      have digit := all '-' List.mem_cons_self
      contradiction
    simp only [sign, Bool.false_eq_true, if_false, List.nil_append]
    rw [scanNumber]
    · simp only [run, if_neg front, second, Option.bind_eq_bind, Option.bind_some, third]
      rfl
    · exact plain

/-- A number starts with a sign or with a digit. -/
theorem starts_of_scanNumber {c : Char} {cs : List Char}
    (number : (scanNumber (c :: cs)).isSome = true) : c = '-' ∨ c.isDigit = true := by
  by_cases minus : c = '-'
  · exact Or.inl minus
  · right
    by_contra other
    simp [scanNumber, minus, Text.digitRun, other] at number

theorem ne_of_starts {c d : Char} (starts : c = '-' ∨ c.isDigit = true) (different : d ≠ '-')
    (noDigit : d.isDigit = false) : c ≠ d := by
  rintro rfl
  obtain rfl | digit := starts
  · exact different rfl
  · rw [noDigit] at digit
    contradiction

theorem isSpace_of_starts {c : Char} (starts : c = '-' ∨ c.isDigit = true) :
    isSpace c = false := by
  have other : ∀ d : Char, d ≠ '-' → d.isDigit = false → c ≠ d := fun _ => ne_of_starts starts
  simp only [isSpace, Bool.or_eq_false_iff, decide_eq_false_iff_not]
  exact ⟨⟨⟨other ' ' (by decide) (by decide), other '\n' (by decide) (by decide)⟩,
    other '\t' (by decide) (by decide)⟩, other '\r' (by decide) (by decide)⟩

/-- A text that starts a number is scanned as one. -/
theorem scan_number {cs rest : List Char} {l : Literal} (number : scanNumber cs = some (l, rest))
    (steps : Nat) : scan (steps + 1) cs = (l.tree, rest) := by
  cases cs with
  | nil => simp [scanNumber, Text.digitRun] at number
  | cons c cs =>
    have starts := starts_of_scanNumber (Option.isSome_of_mem number)
    have other : ∀ d : Char, d ≠ '-' → d.isDigit = false → c ≠ d := fun _ => ne_of_starts starts
    rw [scan, skipSpace_cons_of_not (isSpace_of_starts starts)]
    split
    · contradiction
    · rename_i same
      cases same
      exact absurd rfl (other '"' (by decide) (by decide))
    · rename_i same
      cases same
      exact absurd rfl (other '[' (by decide) (by decide))
    · rename_i same
      cases same
      exact absurd rfl (other '{' (by decide) (by decide))
    · rename_i same
      cases same
      rw [if_neg (other 'n' (by decide) (by decide)), if_neg (other 't' (by decide) (by decide)),
        if_neg (other 'f' (by decide) (by decide)), number]

/-! ## Numerals -/

/-- The text is scanned as a number, with or without a sign in front and whatever follows it. -/
def IsNumeral (cs : List Char) : Prop :=
  ∃ l : Literal, ∀ negative rest, EndsNumber rest →
    scanNumber (sign negative ++ (cs ++ rest)) = some ({ l with negative }, rest)

/-- A power as it is written, or none. -/
def IsPower (cs : List Char) : Prop :=
  cs = [] ∨ ∃ sign digits, (sign = '+' ∨ sign = '-') ∧ digits ≠ [] ∧
    (∀ c ∈ digits, c.isDigit = true) ∧ cs = 'e' :: sign :: digits

theorem IsPower.scan {cs : List Char} (power : IsPower cs) : ∃ p, ∀ rest, EndsNumber rest →
    EndsRun (cs ++ rest) ∧ scanFraction (cs ++ rest) = some ([], cs ++ rest) ∧
      scanPower (cs ++ rest) = some (p, rest) := by
  obtain rfl | ⟨sign, digits, signed, some, all, rfl⟩ := power
  · exact ⟨.none, fun _ ends => ⟨ends.endsRun, scanFraction_none ends, scanPower_none ends⟩⟩
  · obtain ⟨p, scanned⟩ := exists_scanPower all some signed
    refine ⟨.some p, fun rest ends => ⟨?_, rfl, scanned rest ends.endsRun⟩⟩
    rintro _ ⟨⟩
    rfl

theorem isNumeral_of_pointed {whole fraction power : List Char}
    (all : ∀ c ∈ whole, c.isDigit = true) (some : whole ≠ [])
    (leading : whole.length = 1 ∨ whole.head? ≠ .some '0')
    (digits : ∀ c ∈ fraction, c.isDigit = true) (behind : fraction ≠ []) (powered : IsPower power) :
    IsNumeral (whole ++ '.' :: (fraction ++ power)) := by
  obtain ⟨p, scanned⟩ := powered.scan
  refine ⟨⟨false, whole, fraction, p⟩, fun negative rest ends => ?_⟩
  obtain ⟨endsRun, _, third⟩ := scanned rest ends
  have second := scanFraction_digits digits behind endsRun
  rw [List.append_assoc, List.cons_append, List.append_assoc]
  refine scanNumber_parts all some leading ?_ second third negative
  rintro _ ⟨⟩
  rfl

theorem isNumeral_of_whole {whole power : List Char} (all : ∀ c ∈ whole, c.isDigit = true)
    (some : whole ≠ []) (leading : whole.length = 1 ∨ whole.head? ≠ .some '0')
    (powered : IsPower power) : IsNumeral (whole ++ power) := by
  obtain ⟨p, scanned⟩ := powered.scan
  refine ⟨⟨false, whole, [], p⟩, fun negative rest ends => ?_⟩
  obtain ⟨endsRun, second, third⟩ := scanned rest ends
  rw [List.append_assoc]
  exact scanNumber_parts all some leading endsRun second third negative

/-! ## Whole numbers -/

theorem tree_integer {n : Int} (fits : Json.fits n = true) :
    Literal.tree ⟨n < 0, Text.decimal n.natAbs, [], none⟩ = integer n := by
  simp only [Json.fits, Bool.and_eq_true, decide_eq_true_eq] at fits
  simp only [Literal.tree, Text.ofDecimal_decimal, List.isEmpty_nil, Option.isNone_none,
    Bool.true_and]
  by_cases negative : n < 0
  · have small : 0 < n.natAbs ∧ 2 * n.natAbs ≤ UInt64.size := by
      have size : UInt64.size = 18446744073709551616 := rfl
      omega
    have value : -(n.natAbs : Int) = n := by omega
    simp only [negative, small, value, decide_true, Bool.not_true, Bool.false_and, Bool.and_self,
      Bool.false_eq_true, if_false, if_true]
  · have small : n.natAbs < UInt64.size := by
      have size : UInt64.size = 18446744073709551616 := rfl
      omega
    have value : (n.natAbs : Int) = n := by omega
    simp [negative, small, value]

theorem scanNumber_signed (n : Int) {rest : List Char} (ends : EndsNumber rest) :
    scanNumber (Text.signed n ++ rest) =
      some (⟨n < 0, Text.decimal n.natAbs, [], none⟩, rest) := by
  have leading : (Text.decimal n.natAbs).length = 1 ∨
      (Text.decimal n.natAbs).head? ≠ some '0' := by
    by_cases zero : n.natAbs = 0
    · rw [zero]
      exact Or.inl rfl
    · exact Or.inr (Text.head?_decimal_ne (Nat.pos_of_ne_zero zero))
  have text : Text.signed n ++ rest = sign (n < 0) ++ (Text.decimal n.natAbs ++ rest) := by
    by_cases negative : n < 0 <;> simp [Text.signed, sign, negative]
  rw [text]
  exact scanNumber_parts (fun _ => Text.isDigit_of_mem_decimal) (Text.decimal_ne_nil _) leading
    ends.endsRun (scanFraction_none ends) (scanPower_none ends) _

theorem scannedTo_integer {n : Int} (fits : Json.fits n = true) :
    ScannedTo (.integer n) (integer n) := by
  intro layout level rest steps ends enough
  have number := scanNumber_signed n (endsNumber_of_endsPart ends)
  obtain ⟨steps, rfl⟩ : ∃ k, steps = k + 1 := by
    apply Nat.exists_eq_succ_of_ne_zero
    rintro rfl
    rw [Json.chars, Nat.le_zero, List.length_eq_zero_iff, Text.signed] at enough
    split at enough
    · cases enough
    · exact Text.decimal_ne_nil _ enough
  rw [Json.chars, scan_number number, tree_integer fits]

end Tree

end Rollback
