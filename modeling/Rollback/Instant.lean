import Rollback.Text.Numeral

/-!
# Points in time

An instant is a civil date of the proleptic Gregorian calendar, a second of that day in UTC and a
fraction in nanoseconds. A leap second is written as second 60: it shares the number of the second
in front of it and counts its own fraction from one thousand million, so that it comes after the
whole of that second and before the next minute.
-/

namespace Rollback

/-! ## Dates -/

def isLeapYear (year : Int) : Bool := year % 4 == 0 && (year % 100 != 0 || year % 400 == 0)

def daysInMonth (year : Int) (month : Nat) : Nat :=
  if month = 2 then if isLeapYear year then 29 else 28
  else if month = 4 ∨ month = 6 ∨ month = 9 ∨ month = 11 then 30
  else 31

structure Date where
  year : Int
  month : Nat
  day : Nat
  month_pos : 1 ≤ month
  month_le : month ≤ 12
  day_pos : 1 ≤ day
  day_le : day ≤ daysInMonth year month
  deriving DecidableEq

namespace Date

def ofNumbers? (year : Int) (month day : Nat) : Option Date :=
  if h : (1 ≤ month ∧ month ≤ 12) ∧ 1 ≤ day ∧ day ≤ daysInMonth year month then
    some ⟨year, month, day, h.1.1, h.1.2, h.2.1, h.2.2⟩
  else none

theorem one_le_daysInMonth (year : Int) (month : Nat) : 1 ≤ daysInMonth year month := by
  simp only [daysInMonth]
  repeat' split
  all_goals decide

def next (d : Date) : Date :=
  if h : d.day + 1 ≤ daysInMonth d.year d.month then
    { d with day := d.day + 1, day_pos := by omega, day_le := h }
  else if h : d.month + 1 ≤ 12 then
    ⟨d.year, d.month + 1, 1, by omega, h, by omega, one_le_daysInMonth ..⟩
  else ⟨d.year + 1, 1, 1, by omega, by omega, by omega, one_le_daysInMonth ..⟩

def previous (d : Date) : Date :=
  if h : 1 ≤ d.day - 1 then
    { d with day := d.day - 1, day_pos := h, day_le := Nat.le_trans (Nat.sub_le ..) d.day_le }
  else if h : 1 ≤ d.month - 1 then
    ⟨d.year, d.month - 1, daysInMonth d.year (d.month - 1), h,
      Nat.le_trans (Nat.sub_le ..) d.month_le, one_le_daysInMonth .., Nat.le_refl _⟩
  else ⟨d.year - 1, 12, daysInMonth (d.year - 1) 12, by omega, by omega, one_le_daysInMonth ..,
    Nat.le_refl _⟩

instance : Ord Date :=
  ⟨compareLex (compareOn year) (compareLex (compareOn month) (compareOn day))⟩

instance : Std.TransOrd Date :=
  inferInstanceAs (Std.TransCmp
    (compareLex (compareOn year) (compareLex (compareOn month) (compareOn day))))

theorem compare_eq (a b : Date) : compare a b =
    (compare a.year b.year).then ((compare a.month b.month).then (compare a.day b.day)) := rfl

instance : Std.LawfulEqOrd Date where
  eq_of_compare {a b} h := by
    rw [compare_eq, Ordering.then_eq_eq, Ordering.then_eq_eq] at h
    obtain ⟨hy, hm, hd⟩ := h
    cases a; cases b
    have hy := Std.LawfulEqOrd.eq_of_compare hy
    have hm := Std.LawfulEqOrd.eq_of_compare hm
    have hd := Std.LawfulEqOrd.eq_of_compare hd
    simp_all

theorem lt_next (d : Date) : compare d d.next = .lt := by
  rw [compare_eq, next]
  split
  · simp [Std.ReflCmp.compare_self, Nat.compare_eq_lt]
  · split
    · have later : compare d.month (d.month + 1) = .lt := Nat.compare_eq_lt.mpr (Nat.lt_succ_self _)
      simp [Std.ReflCmp.compare_self, later]
    · have later : compare d.year (d.year + 1) = .lt := Int.compare_eq_lt.mpr (Int.lt_succ _)
      simp [later]

end Date

/-! ## Instants -/

/-- A second of a day, with its fraction. -/
structure Instant where
  date : Date
  second : Nat
  nano : Nat
  second_lt : second < 86400
  nano_lt : nano < 2000000000
  leap : 1000000000 ≤ nano → second % 60 = 59
  deriving DecidableEq

namespace Instant

/-- The instant that stands for a time that was never set. -/
def epoch : Instant where
  date := ⟨1970, 1, 1, by decide, by decide, by decide, by decide⟩
  second := 0
  nano := 0
  second_lt := by decide
  nano_lt := by decide
  leap := by decide

instance : Inhabited Instant := ⟨epoch⟩

instance : Ord Instant :=
  ⟨compareLex (compareOn date) (compareLex (compareOn second) (compareOn nano))⟩

instance : Std.TransOrd Instant :=
  inferInstanceAs (Std.TransCmp
    (compareLex (compareOn date) (compareLex (compareOn second) (compareOn nano))))

theorem compare_eq (a b : Instant) : compare a b =
    (compare a.date b.date).then ((compare a.second b.second).then (compare a.nano b.nano)) := rfl

instance : Std.LawfulEqOrd Instant where
  eq_of_compare {a b} h := by
    rw [compare_eq, Ordering.then_eq_eq, Ordering.then_eq_eq] at h
    obtain ⟨hd, hs, hn⟩ := h
    cases a; cases b
    have hd := Std.LawfulEqOrd.eq_of_compare hd
    have hs := Std.LawfulEqOrd.eq_of_compare hs
    have hn := Std.LawfulEqOrd.eq_of_compare hn
    simp_all

/-- The second after, with a fraction of its own below one second. -/
def nextSecond (t : Instant) (nano : Nat) (h : nano < 1000000000) : Instant :=
  if hs : t.second + 1 < 86400 then
    ⟨t.date, t.second + 1, nano, hs, by omega, by omega⟩
  else ⟨t.date.next, 0, nano, by omega, by omega, by omega⟩

/-- One microsecond later. A leap second runs through its own fraction first. The calendar has no
last instant here: a clock that can show only the years that can be read (`inRange`) has no tick
behind the last of them. -/
def tick (t : Instant) : Instant :=
  if hn : t.nano + 1000 < 1000000000 then
    { t with nano := t.nano + 1000, nano_lt := by omega, leap := by omega }
  else if hl : 1000000000 ≤ t.nano ∧ t.nano + 1000 < 2000000000 then
    { t with nano := t.nano + 1000, nano_lt := hl.2, leap := fun _ => t.leap hl.1 }
  else t.nextSecond ((t.nano + 1000) % 1000000000) (Nat.mod_lt _ (by decide))

theorem lt_nextSecond (t : Instant) {nano : Nat} (h : nano < 1000000000) :
    compare t (t.nextSecond nano h) = .lt := by
  rw [Instant.compare_eq, nextSecond]
  split
  · have later : compare t.second (t.second + 1) = .lt :=
      Nat.compare_eq_lt.mpr (Nat.lt_succ_self _)
    simp [Std.ReflCmp.compare_self, later]
  · simp [Date.lt_next]

/-- The next tick comes strictly after, across the ends of seconds, days, months and years. -/
theorem lt_tick (t : Instant) : compare t t.tick = .lt := by
  rw [tick]
  split
  · simp [Instant.compare_eq, Std.ReflCmp.compare_self, Nat.compare_eq_lt]
  · split
    · simp [Instant.compare_eq, Std.ReflCmp.compare_self, Nat.compare_eq_lt]
    · exact lt_nextSecond t _

/-! ## Text -/

/-- A year has four digits; outside of 0 to 9999 it has a sign and at least four. -/
def yearChars (year : Int) : List Char :=
  if 0 ≤ year ∧ year ≤ 9999 then Text.padded 4 year.natAbs
  else (if year < 0 then '-' else '+') :: Text.padded 4 year.natAbs

/-- The fraction has no digits or three, six or nine of them, the fewest that are exact. -/
def fractionChars (nano : Nat) : List Char :=
  if nano = 0 then []
  else if nano % 1000000 = 0 then '.' :: Text.padded 3 (nano / 1000000)
  else if nano % 1000 = 0 then '.' :: Text.padded 6 (nano / 1000)
  else '.' :: Text.padded 9 nano

/-- The second of the minute and the fraction as they are written: a leap second is second 60. -/
def secondAndFraction (t : Instant) : Nat × Nat :=
  if t.nano < 1000000000 then (t.second % 60, t.nano) else (60, t.nano - 1000000000)

def toChars (t : Instant) : List Char :=
  let (second, fraction) := t.secondAndFraction
  yearChars t.date.year ++ '-' :: Text.padded 2 t.date.month ++ '-' :: Text.padded 2 t.date.day ++
    'T' :: Text.padded 2 (t.second / 3600) ++ ':' :: Text.padded 2 (t.second / 60 % 60) ++
    ':' :: Text.padded 2 second ++ fractionChars fraction ++ ['Z']

def toString (t : Instant) : String := String.ofList t.toChars

instance : ToString Instant := ⟨toString⟩

/-- A number of one to `width` digits, with white space in front. -/
def readNumber (width : Nat) (cs : List Char) : Option (Nat × List Char) :=
  let (digits, rest) := Text.digitRunUpTo width (Text.skipBlank cs)
  if digits.isEmpty then none else some (Text.ofDecimal digits, rest)

/-- A year is four digits at most, or has a sign and any number of digits. -/
def readYear (cs : List Char) : Option (Int × List Char) :=
  let longYear (sign : Int) (cs : List Char) :=
    let (digits, rest) := Text.digitRun cs
    if digits.isEmpty then none else some (sign * Text.ofDecimal digits, rest)
  match Text.skipBlank cs with
  | '-' :: cs => longYear (-1) cs
  | '+' :: cs => longYear 1 cs
  | cs => (readNumber 4 cs).map fun (n, rest) => ((n : Int), rest)

/-- The rest behind a mark, with white space in front of the mark. -/
def readMark (mark : Char) (cs : List Char) : Option (List Char) :=
  match Text.skipBlank cs with
  | c :: rest => if c = mark then some rest else none
  | [] => none

/-- The date and the time of day are parted by a `T` in either case or by a space. -/
def readSeparator : List Char → Option (List Char)
  | c :: rest => if c = 'T' ∨ c = 't' ∨ c = ' ' then some rest else none
  | [] => none

/-- A fraction behind a point: nine digits count and the others are dropped. -/
def readFraction : List Char → Option (Nat × List Char)
  | '.' :: cs =>
    let (digits, rest) := Text.digitRun cs
    if digits.isEmpty then none
    else
      some (Text.ofDecimal ((digits ++ List.replicate 9 '0').take 9), rest)
  | cs => some (0, cs)

/-- Two digits, and nothing in front of them. -/
def readTwoDigits : List Char → Option (Nat × List Char)
  | a :: b :: rest =>
    if a.isDigit && b.isDigit then some (Text.ofDecimal [a, b], rest) else none
  | _ => none

/-- Hours and minutes to the east in seconds; colons and white space may part the two. -/
def readHoursMinutes (cs : List Char) : Option (Nat × List Char) := do
  let (hours, cs) ← readTwoDigits cs
  let (minutes, rest) ← readTwoDigits (cs.dropWhile fun c => c = ':' || Text.isBlank c)
  if minutes < 60 then some (3600 * hours + 60 * minutes, rest) else none

/-- The distance from UTC in seconds. Either hyphen or minus sign goes to the west. -/
def readOffset (cs : List Char) : Option (Int × List Char) :=
  let cs := Text.skipBlank cs
  if (cs.take 3).map Char.toUpper = ['U', 'T', 'C'] then some (0, cs.drop 3)
  else
    match cs with
    | 'Z' :: rest => some (0, rest)
    | 'z' :: rest => some (0, rest)
    | '+' :: rest => (readHoursMinutes rest).map fun (n, rest) => ((n : Int), rest)
    | '-' :: rest => (readHoursMinutes rest).map fun (n, rest) => (-(n : Int), rest)
    | '−' :: rest => (readHoursMinutes rest).map fun (n, rest) => (-(n : Int), rest)
    | _ => none

/-- The years for which a time can be read. -/
def inRange (date : Date) : Bool := -262143 ≤ date.year && date.year ≤ 262142

/-- A local time of day, moved to UTC by an offset of less than a day. -/
def ofLocal? (date : Date) (hour minute second nano : Nat) (offset : Int) : Option Instant :=
  if h : second ≤ 60 ∧ nano < 1000000000 ∧ offset % 60 = 0 then
    if hour < 24 ∧ minute < 60 ∧ offset.natAbs < 86400 ∧ inRange date then
      let plain : Int := 3600 * hour + 60 * minute + (if second = 60 then 59 else second)
      let shifted := plain - offset
      let utcDate := if shifted < 0 then date.previous
        else if 86400 ≤ shifted then date.next else date
      if inRange utcDate then
        some ⟨utcDate, (shifted % 86400).toNat, if second = 60 then 1000000000 + nano else nano,
          by omega, by split <;> omega, by
            intro hl
            have hsecond : second = 60 := by
              by_cases hs : second = 60
              · exact hs
              · simp only [if_neg hs] at hl; omega
            simp only [shifted, plain, if_pos hsecond]
            omega⟩
      else none
    else none
  else none

/-- Reads a time with its offset; white space may stand at both ends. -/
def ofChars? (cs : List Char) : Option Instant := do
  let (year, cs) ← readYear cs
  let (month, cs) ← readNumber 2 (← readMark '-' cs)
  let (day, cs) ← readNumber 2 (← readMark '-' cs)
  let (hour, cs) ← readNumber 2 (← readSeparator cs)
  let (minute, cs) ← readNumber 2 (← readMark ':' cs)
  let (second, cs) ← readNumber 2 (← readMark ':' cs)
  let (nano, cs) ← readFraction cs
  let (offset, cs) ← readOffset cs
  if (Text.skipBlank cs).isEmpty then
    ofLocal? (← Date.ofNumbers? year month day) hour minute second nano offset
  else none

def ofString? (s : String) : Option Instant := ofChars? s.toList

end Instant

end Rollback
