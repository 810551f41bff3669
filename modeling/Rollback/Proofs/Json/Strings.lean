import Rollback.Json.Printer
import Rollback.Json.Tree
import Rollback.Proofs.Text.Hexadecimal

/-!
# Written strings are read back

Each character of a string is written in one of three ways: with a letter behind a backslash, with
its number, or as it is. The scanner takes each of them for the character (`codes_stringChar`), so a
string is scanned to the text that was written (`scanString_stringChars`).
-/

namespace Rollback.Tree

open Json (stringChar stringChars)

theorem codes_escaped {c e : Char} (denotes : unescape c = some e) (rest : List Char) :
    codes ('\\' :: c :: rest) = (codes rest).map fun (ns, rest) => (e.toNat :: ns, rest) := by
  have other : c ≠ 'u' := by
    rintro rfl
    have none : unescape 'u' = none := by decide
    rw [none] at denotes
    contradiction
  rw [codes]
  · simp only [denotes]
  · exact fun _ _ _ _ _ same => absurd same other

theorem codes_plain {c : Char} (printable : ¬ c.toNat < 0x20) (noQuote : c ≠ '"')
    (noBackslash : c ≠ '\\') (rest : List Char) :
    codes (c :: rest) = (codes rest).map fun (ns, rest) => (c.toNat :: ns, rest) := by
  rw [codes]
  · rw [if_neg (by simp [printable, noBackslash])]
  · simpa using noQuote
  · simp [noBackslash]
  · simp [noBackslash]

theorem codes_numbered {n : Nat} (small : n < 0x20) (rest : List Char) :
    codes ('\\' :: 'u' :: '0' :: '0' :: Nat.digitChar (n / 16) :: Nat.digitChar (n % 16) :: rest) =
      (codes rest).map fun (ns, rest) => (n :: ns, rest) := by
  have value : Text.ofHexDigits 0 ['0', '0', Nat.digitChar (n / 16), Nat.digitChar (n % 16)] =
      some n := by
    have all : ∀ n < 0x20, Text.ofHexDigits 0
        ['0', '0', Nat.digitChar (n / 16), Nat.digitChar (n % 16)] = some n := by decide
    exact all n small
  simp only [codes, value]

theorem codes_stringChar (c : Char) (rest : List Char) :
    codes (stringChar c ++ rest) = (codes rest).map fun (ns, rest) => (c.toNat :: ns, rest) := by
  unfold stringChar
  split
  · subst c
    exact codes_escaped (by decide) rest
  split
  · subst c
    exact codes_escaped (by decide) rest
  split
  · subst c
    exact codes_escaped (by decide) rest
  split
  · subst c
    exact codes_escaped (by decide) rest
  split
  · subst c
    exact codes_escaped (by decide) rest
  split
  · subst c
    exact codes_escaped (by decide) rest
  split
  · subst c
    exact codes_escaped (by decide) rest
  split
  · exact codes_numbered ‹_› rest
  · exact codes_plain ‹_› ‹_› ‹_› rest

theorem codes_stringChars (cs rest : List Char) :
    codes (cs.flatMap stringChar ++ '"' :: rest) = some (cs.map Char.toNat, rest) := by
  induction cs with
  | nil => rfl
  | cons c cs ih =>
    rw [List.flatMap_cons, List.append_assoc, codes_stringChar, ih]
    rfl

/-- No character is a surrogate, so each number of a character makes that character. -/
theorem textOfCodes_map_toNat (cs : List Char) : textOfCodes (cs.map Char.toNat) = some cs := by
  induction cs with
  | nil => rfl
  | cons c cs ih =>
    have valid := c.valid
    have valid : c.toNat < 0xd800 ∨ 0xdfff < c.toNat := c.valid.imp_right And.left
    have high : isHighSurrogate c.toNat = false := by
      simp only [isHighSurrogate, Bool.and_eq_false_iff, decide_eq_false_iff_not]
      omega
    have low : isLowSurrogate c.toNat = false := by
      simp only [isLowSurrogate, Bool.and_eq_false_iff, decide_eq_false_iff_not]
      omega
    rw [List.map_cons, textOfCodes.eq_def]
    simp only [high, low, ih, Bool.false_eq_true, if_false, Option.map_some, Char.ofNat_toNat]

theorem scanString_stringChars (s : String) (rest : List Char) :
    scanString (s.toList.flatMap stringChar ++ '"' :: rest) = some (some s, rest) := by
  rw [scanString, codes_stringChars, Option.map_some]
  simp only [textOfCodes_map_toNat, Option.map_some, String.ofList_toList]

end Rollback.Tree
