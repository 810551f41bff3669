/-!
# Numerals

Numbers in plain text, and the white space around them. A number is a run of decimal digits: written
without leading zeros or with a fixed least width, and read back from the longest run at the front of
a text. Hexadecimal digits are written with a fixed width. A number of 64 bits may have one plus sign
in front; its text is taken digit by digit, and the first digit that is none or that leaves 64 bits
decides what is wrong.
-/

namespace Rollback.Text

/-! ## White space -/

/-- The Unicode property `White_Space`. -/
def isBlank (c : Char) : Bool :=
  let n := c.toNat
  (0x9 ≤ n && n ≤ 0xd) || n == 0x20 || n == 0x85 || n == 0xa0 || n == 0x1680 ||
    (0x2000 ≤ n && n ≤ 0x200a) || n == 0x2028 || n == 0x2029 || n == 0x202f || n == 0x205f ||
    n == 0x3000

/-- What is left once the white space in front is gone. -/
def skipBlank (cs : List Char) : List Char := cs.dropWhile isBlank

/-- The text without the white space at its two ends. -/
def trim (cs : List Char) : List Char := (skipBlank (skipBlank cs).reverse).reverse

theorem isBlank_of_isWhitespace {c : Char} (h : c.isWhitespace) : isBlank c := by
  simp only [Char.isWhitespace, Bool.or_eq_true, decide_eq_true_eq] at h
  obtain ((rfl | rfl) | rfl) | rfl := h <;> decide

theorem skipBlank_cons_of_not {c : Char} (h : isBlank c = false) (cs : List Char) :
    skipBlank (c :: cs) = c :: cs := by
  simp [skipBlank, h]

/-! ## Digits -/

/-- The digits of a number, without leading zeros. -/
def decimal (n : Nat) : List Char := Nat.toDigits 10 n

/-- The digits of a number, with zeros in front up to the given width. -/
def padded (width n : Nat) : List Char :=
  List.replicate (width - (decimal n).length) '0' ++ decimal n

/-- The number that a run of digits denotes. -/
def ofDecimal (digits : List Char) : Nat :=
  digits.foldl (fun n c => 10 * n + (c.toNat - '0'.toNat)) 0

/-- The longest run of digits in front, and the rest. -/
def digitRun (cs : List Char) : List Char × List Char :=
  (cs.takeWhile Char.isDigit, cs.dropWhile Char.isDigit)

/-- The longest run of at most `width` digits in front, and the rest. -/
def digitRunUpTo (width : Nat) (cs : List Char) : List Char × List Char :=
  let digits := (cs.take width).takeWhile Char.isDigit
  (digits, cs.drop digits.length)

def signed (n : Int) : List Char := if n < 0 then '-' :: decimal n.natAbs else decimal n.natAbs

/-- The value of a hexadecimal digit in either case. -/
def hexValue (c : Char) : Option Nat :=
  if '0' ≤ c ∧ c ≤ '9' then some (c.toNat - '0'.toNat)
  else if 'a' ≤ c ∧ c ≤ 'f' then some (c.toNat - 'a'.toNat + 10)
  else if 'A' ≤ c ∧ c ≤ 'F' then some (c.toNat - 'A'.toNat + 10)
  else none

/-- The `width` low hexadecimal digits of a number, highest first and in lower case. -/
def hexDigits : (width : Nat) → Nat → List Char
  | 0, _ => []
  | width + 1, n => hexDigits width (n / 16) ++ [Nat.digitChar (n % 16)]

/-- The number that hexadecimal digits denote behind `seen`; nothing if some character is none. -/
def ofHexDigits (seen : Nat) : List Char → Option Nat
  | [] => some seen
  | c :: cs => do ofHexDigits (16 * seen + (← hexValue c)) cs

theorem digitRun_append (cs : List Char) : (digitRun cs).1 ++ (digitRun cs).2 = cs :=
  List.takeWhile_append_dropWhile

theorem decimal_ne_nil (n : Nat) : decimal n ≠ [] := by
  intro h
  have := congrArg List.length h
  simp [decimal] at this

/-! ## Numbers of 64 bits -/

/-- What keeps a text from being a number. -/
inductive NumberFault where
  | empty
  | noDigit
  | tooLarge
  deriving DecidableEq, Repr

def NumberFault.message : NumberFault → String
  | empty => "cannot parse integer from empty string"
  | noDigit => "invalid digit found in string"
  | tooLarge => "number too large to fit in target type"

/-- Takes digits behind those that denote `seen`. -/
def wordDigits (seen : Nat) : List Char → Except NumberFault Nat
  | [] => .ok seen
  | c :: cs =>
    if !c.isDigit then .error .noDigit
    else
      let next := 10 * seen + (c.toNat - '0'.toNat)
      if next < UInt64.size then wordDigits next cs else .error .tooLarge

/-- The number that a text denotes, white space around it aside. -/
def word (cs : List Char) : Except NumberFault Nat :=
  match trim cs with
  | [] => .error .empty
  | ['+'] => .error .noDigit
  | '+' :: digits => wordDigits 0 digits
  | digits => wordDigits 0 digits

end Rollback.Text
