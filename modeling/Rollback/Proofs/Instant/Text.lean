import Rollback.Instant
import Rollback.Proofs.Text.Decimal

/-!
# Instants as text

Each part of a written instant is read back from the front of the text, so the text of an instant
denotes that instant if its year is one that can be read (`ofString?_toString`).
-/

namespace Rollback

namespace Text

theorem not_isBlank_of_isDigit {c : Char} (digit : c.isDigit = true) : isBlank c = false := by
  simp only [Char.isDigit, ge_iff_le, Bool.and_eq_true, decide_eq_true_eq, UInt32.le_iff_toNat_le]
    at digit
  have bounds : 48 ≤ c.toNat ∧ c.toNat ≤ 57 := digit
  simp only [isBlank, Bool.or_eq_false_iff, Bool.and_eq_false_iff, decide_eq_false_iff_not,
    beq_eq_false_iff_ne]
  omega

theorem isDigit_of_padded_eq_cons {width n : Nat} {rest cs : List Char} {c : Char}
    (same : padded width n ++ rest = c :: cs) : c.isDigit = true := by
  have first := congrArg List.head? same
  rw [List.head?_append, List.head?_eq_some_head (padded_ne_nil width n), Option.some_or,
    List.head?_cons, Option.some.injEq] at first
  rw [← first]
  exact isDigit_of_mem_padded (List.head_mem _)

theorem skipBlank_padded (width n : Nat) (rest : List Char) :
    skipBlank (padded width n ++ rest) = padded width n ++ rest := by
  cases text : padded width n ++ rest with
  | nil => rfl
  | cons c cs => exact skipBlank_cons_of_not (not_isBlank_of_isDigit (isDigit_of_padded_eq_cons text)) cs

theorem ofDecimal_append_zeros (digits : List Char) (count : Nat) :
    ofDecimal (digits ++ List.replicate count '0') = 10 ^ count * ofDecimal digits := by
  rw [ofDecimal_eq, ofDecimal_eq, Nat.ofDigitChars_append, Nat.ofDigitChars_replicate_zero]

end Text

namespace Instant

open Text (padded)

theorem readNumber_padded {width n : Nat} (some : 0 < width) (fits : n < 10 ^ width)
    (rest : List Char) : readNumber width (padded width n ++ rest) = .some (n, rest) := by
  rw [readNumber, Text.skipBlank_padded, Text.digitRunUpTo_append (Text.length_padded some fits)
    fun _ => Text.isDigit_of_mem_padded]
  simp [Text.padded_ne_nil, Text.ofDecimal_padded]

theorem readYear_yearChars (year : Int) (rest : List Char) :
    readYear (yearChars year ++ '-' :: rest) = some (year, '-' :: rest) := by
  have run : Text.digitRun (padded 4 year.natAbs ++ '-' :: rest) =
      (padded 4 year.natAbs, '-' :: rest) := by
    apply Text.digitRun_of_endsRun fun _ => Text.isDigit_of_mem_padded
    rintro _ ⟨⟩
    rfl
  rw [yearChars]
  split
  · rename_i short
    rw [readYear, Text.skipBlank_padded]
    split
    · cases Text.isDigit_of_padded_eq_cons ‹_›
    · cases Text.isDigit_of_padded_eq_cons ‹_›
    · have fits : year.natAbs < 10 ^ 4 := by omega
      rw [readNumber_padded (by decide) fits, Option.map_some]
      simp only [Int.natAbs_of_nonneg short.1]
  · split
    · have value : -1 * (year.natAbs : Int) = year := by omega
      rw [readYear, List.cons_append, Text.skipBlank_cons_of_not (by decide)]
      simp only [run, Text.ofDecimal_padded, value]
      simp [Text.padded_ne_nil]
    · have value : 1 * (year.natAbs : Int) = year := by omega
      rw [readYear, List.cons_append, Text.skipBlank_cons_of_not (by decide)]
      simp only [run, Text.ofDecimal_padded, value]
      simp [Text.padded_ne_nil]

theorem readMark_cons (mark : Char) (solid : Text.isBlank mark = false) (rest : List Char) :
    readMark mark (mark :: rest) = some rest := by
  rw [readMark, Text.skipBlank_cons_of_not solid]
  simp

theorem readFraction_fractionChars {nano : Nat} (fits : nano < 1000000000) (rest : List Char) :
    readFraction (fractionChars nano ++ 'Z' :: rest) = some (nano, 'Z' :: rest) := by
  have digits : ∀ width n : Nat, 0 < width → width ≤ 9 → n < 10 ^ width →
      n * 10 ^ (9 - width) = nano →
      readFraction ('.' :: padded width n ++ 'Z' :: rest) = some (nano, 'Z' :: rest) := by
    intro width n positive most small value
    have run : Text.digitRun (padded width n ++ 'Z' :: rest) = (padded width n, 'Z' :: rest) := by
      apply Text.digitRun_of_endsRun fun _ => Text.isDigit_of_mem_padded
      rintro _ ⟨⟩
      rfl
    have nine : (padded width n ++ List.replicate 9 '0').take 9 =
        padded width n ++ List.replicate (9 - width) '0' := by
      rw [List.take_append, Text.length_padded positive small, List.take_of_length_le (by
        rw [Text.length_padded positive small]
        exact most), List.take_replicate, Nat.min_eq_left (Nat.sub_le 9 width)]
    rw [List.cons_append, readFraction]
    simp only [run, nine, Text.ofDecimal_append_zeros, Text.ofDecimal_padded]
    simp [Text.padded_ne_nil, ← value, Nat.mul_comm]
  rw [fractionChars]
  split
  · subst nano
    rfl
  split
  · exact digits 3 _ (by decide) (by decide) (by omega) (by omega)
  split
  · exact digits 6 _ (by decide) (by decide) (by omega) (by omega)
  · exact digits 9 _ (by decide) (by decide) (by omega) (by omega)

/-- At no distance from UTC a local time of day stays in its day. -/
theorem ofLocal?_eq (t : Instant) {hour minute second nano : Nat} (hours : hour < 24)
    (minutes : minute < 60) (seconds : second ≤ 60) (fraction : nano < 1000000000)
    (sameSecond : 3600 * hour + 60 * minute + (if second = 60 then 59 else second) = t.second)
    (sameNano : (if second = 60 then 1000000000 + nano else nano) = t.nano) :
    ofLocal? t.date hour minute second nano 0 = if inRange t.date then some t else none := by
  have plain : 3600 * (hour : Int) + 60 * (minute : Int) +
      ((if second = 60 then 59 else second : Nat) : Int) - 0 = t.second := by
    omega
  have bound := t.second_lt
  rw [ofLocal?, dif_pos ⟨seconds, fraction, by decide⟩]
  by_cases range : inRange t.date = true
  · rw [if_pos ⟨hours, minutes, by decide, range⟩, if_pos range]
    have sameDay : ¬ (t.second : Int) < 0 ∧ ¬ (86400 : Int) ≤ t.second := by omega
    have inDay : ((t.second : Int) % 86400).toNat = t.second := by omega
    simp only [plain, sameNano, sameDay, if_false, inDay]
    rw [if_pos range]
  · rw [if_neg (fun all => range all.2.2.2), if_neg range]

theorem ofLocal?_self (t : Instant) :
    ofLocal? t.date (t.second / 3600) (t.second / 60 % 60) t.secondAndFraction.1
      t.secondAndFraction.2 0 = if inRange t.date then some t else none := by
  have secondBound := t.second_lt
  have nanoBound := t.nano_lt
  rw [secondAndFraction]
  split
  · have short : t.second % 60 ≠ 60 := by omega
    apply ofLocal?_eq t (by omega) (by omega) (by dsimp only; omega) ‹_›
    · rw [if_neg short]
      omega
    · rw [if_neg short]
  · have last : t.second % 60 = 59 := t.leap (by omega)
    apply ofLocal?_eq t (by omega) (by omega) (Nat.le_refl 60) (by dsimp only; omega)
    · rw [if_pos rfl]
      omega
    · rw [if_pos rfl]
      dsimp only
      omega

theorem ofNumbers?_self (d : Date) : Date.ofNumbers? d.year d.month d.day = some d := by
  rw [Date.ofNumbers?, dif_pos ⟨⟨d.month_pos, d.month_le⟩, d.day_pos, d.day_le⟩]

theorem ofString?_toString (t : Instant) :
    ofString? t.toString = if inRange t.date then some t else none := by
  have secondBound := t.second_lt
  have nanoBound := t.nano_lt
  have monthBound := t.date.month_le
  have dayBound := t.date.day_le
  have seconds : t.secondAndFraction.1 < 10 ^ 2 := by
    rw [secondAndFraction]
    split <;> omega
  have nanos : t.secondAndFraction.2 < 1000000000 := by
    rw [secondAndFraction]
    split <;> omega
  have days : t.date.day < 10 ^ 2 := by
    have most : daysInMonth t.date.year t.date.month ≤ 31 := by
      simp only [daysInMonth]
      repeat' split
      all_goals decide
    omega
  rw [ofString?, toString, String.toList_ofList, toChars]
  simp only [List.append_assoc, List.cons_append]
  rw [ofChars?, readYear_yearChars]
  have dash := readMark_cons '-' (by decide)
  have colon := readMark_cons ':' (by decide)
  have number : ∀ n < 10 ^ 2, ∀ rest, readNumber 2 (padded 2 n ++ rest) = some (n, rest) :=
    fun _ => readNumber_padded (by decide)
  have separator : ∀ rest, readSeparator ('T' :: rest) = some rest := fun _ => rfl
  have offset : readOffset ['Z'] = some (0, []) := by decide
  dsimp only [Option.bind_eq_bind, Option.bind_some]
  rw [dash, Option.bind_some, number t.date.month (by omega)]
  dsimp only [Option.bind_some]
  rw [dash, Option.bind_some, number t.date.day days]
  dsimp only [Option.bind_some]
  rw [separator, Option.bind_some, number (t.second / 3600) (by omega)]
  dsimp only [Option.bind_some]
  rw [colon, Option.bind_some, number (t.second / 60 % 60) (by omega)]
  dsimp only [Option.bind_some]
  rw [colon, Option.bind_some, number t.secondAndFraction.1 seconds]
  dsimp only [Option.bind_some]
  rw [readFraction_fractionChars nanos]
  dsimp only [Option.bind_some]
  rw [offset]
  dsimp only [Option.bind_some]
  have ended : (Text.skipBlank []).isEmpty = true := rfl
  rw [if_pos ended, ofNumbers?_self, Option.bind_some, ofLocal?_self]

theorem inRange_of_ofLocal? {date : Date} {hour minute second nano : Nat} {offset : Int}
    {t : Instant} (read : ofLocal? date hour minute second nano offset = some t) :
    inRange t.date = true := by
  simp only [ofLocal?, Option.dite_none_right_eq_some, Option.ite_none_right_eq_some] at read
  obtain ⟨_, _, range, same⟩ := read
  cases same
  exact range

/-- An instant that was read is within the years for which a time can be read. -/
theorem inRange_of_ofString? {s : String} {t : Instant} (read : ofString? s = some t) :
    inRange t.date = true := by
  rw [ofString?, ofChars?] at read
  dsimp only [Option.bind_eq_bind] at read
  -- one step for each part of the text
  iterate 13
    rw [Option.bind_eq_some_iff] at read
    obtain ⟨_, _, read⟩ := read
  rw [Option.ite_none_right_eq_some, Option.bind_eq_some_iff] at read
  obtain ⟨_, _, _, read⟩ := read
  exact inRange_of_ofLocal? read

end Instant

end Rollback
