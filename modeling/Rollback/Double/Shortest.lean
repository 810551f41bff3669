import Rollback.Double.Basic
import Rollback.Text.Numeral

/-!
# The shortest decimal text of a number

Among the decimals that round to the given binary number, the text has one with the fewest digits,
and of those one that is nearest. The reals that round to a number form an interval: it reaches
half way to each neighbour, and its ends belong to it when the significand is even.
-/

namespace Rollback.Double

structure Ratio where
  num : Nat
  den : Nat

def Ratio.ofBinary (n : Nat) (k : Int) : Ratio :=
  if 0 ≤ k then ⟨n * Nat.pow 2 k.toNat, 1⟩ else ⟨n, Nat.pow 2 k.natAbs⟩

/-- The decimal `digits · 10 ^ exponent`. -/
structure Decimal where
  digits : Nat
  exponent : Int
  deriving DecidableEq, Repr

def Decimal.compare (d : Decimal) (r : Ratio) : Ordering :=
  if 0 ≤ d.exponent then Ord.compare (d.digits * Nat.pow 10 d.exponent.toNat * r.den) r.num
  else Ord.compare (d.digits * r.den) (r.num * Nat.pow 10 d.exponent.natAbs)

/-- The reals that round to a number, with whether the ends are among them. -/
structure Interval where
  low : Ratio
  high : Ratio
  closed : Bool

/-- In quarters of the last place: the lower neighbour is nearer at a power of two. -/
def interval (x : Double) : Interval where
  low := .ofBinary
    (4 * x.significand - if x.fractionField = 0 ∧ 1 < x.exponentField then 1 else 2)
    (x.exponent - 2)
  high := .ofBinary (4 * x.significand + 2) (x.exponent - 2)
  closed := x.significand % 2 = 0

def Interval.contains (i : Interval) (d : Decimal) : Bool :=
  match d.compare i.low, d.compare i.high with
  | .gt, .lt => true
  | .eq, .lt => i.closed
  | .gt, .eq => i.closed
  | _, _ => false

/-- The greatest multiple of `10 ^ k` that is not above the ratio. -/
def Ratio.floor (r : Ratio) (k : Int) : Nat :=
  if 0 ≤ k then r.num / (r.den * Nat.pow 10 k.toNat) else r.num * Nat.pow 10 k.natAbs / r.den

/-- Whether the ratio is nearer to the grid point above than to the one at `n`; a tie goes to the
even one of the two. -/
def Ratio.roundsUp (r : Ratio) (k : Int) (n : Nat) : Bool :=
  let (num, den) :=
    if 0 ≤ k then (r.num, r.den * Nat.pow 10 k.toNat) else (r.num * Nat.pow 10 k.natAbs, r.den)
  let twice := 2 * num
  let middle := (2 * n + 1) * den
  if twice = middle then n % 2 = 1 else middle < twice

/-- The better of the two grid points around the value that lie in the interval. -/
def onGrid (r : Ratio) (i : Interval) (k : Int) : Option Decimal :=
  let n := r.floor k
  let below : Decimal := ⟨n, k⟩
  let above : Decimal := ⟨n + 1, k⟩
  match i.contains below, i.contains above with
  | true, true => some (if r.roundsUp k n then above else below)
  | true, false => some below
  | false, true => some above
  | false, false => none

/-- The position of the first digit: the greatest `p` with `10 ^ p` not above the ratio, searched
upwards from `p` within `fuel` steps. -/
def Ratio.magnitude (r : Ratio) : (fuel : Nat) → (p : Int) → Int
  | 0, p => p
  | fuel + 1, p => if r.floor (p + 1) = 0 then p else r.magnitude fuel (p + 1)

/-- The first grid from `digits` digits on with a hit. -/
def search (r : Ratio) (i : Interval) (p : Int) : (fuel : Nat) → (digits : Nat) → Decimal
  | 0, digits => ⟨r.floor (p - digits), p - digits⟩
  | fuel + 1, digits =>
    match onGrid r i (p + 1 - digits) with
    | some d => d
    | none => search r i p fuel (digits + 1)

def Decimal.strip (d : Decimal) : (fuel : Nat) → Decimal
  | 0 => d
  | fuel + 1 =>
    if d.digits ≠ 0 ∧ d.digits % 10 = 0 then
      Decimal.strip ⟨d.digits / 10, d.exponent + 1⟩ fuel
    else d

/-- The shortest decimal that rounds to a positive number. -/
def shortest (x : Double) : Decimal :=
  let r := Ratio.ofBinary x.significand x.exponent
  (search r x.interval (r.magnitude 700 (-330)) 17 1).strip 20

/-! ## Text -/

/-- Digits around the point for a first digit at `p` from -5 to 15, else one digit in front of the
point and an exponent with its sign. Every number shows a point or an exponent. -/
def decimalChars (d : Decimal) : List Char :=
  let digits := Text.decimal d.digits
  let point : Int := digits.length + d.exponent
  if 0 < point ∧ point ≤ 16 then
    let whole := point.toNat
    if digits.length ≤ whole then
      digits ++ List.replicate (whole - digits.length) '0' ++ ".0".toList
    else digits.take whole ++ '.' :: digits.drop whole
  else if -5 < point ∧ point ≤ 0 then
    "0.".toList ++ List.replicate point.natAbs '0' ++ digits
  else
    let mantissa := match digits with
      | [] => []
      | [c] => [c]
      | c :: cs => c :: '.' :: cs
    let power := point - 1
    mantissa ++ 'e' :: (if power < 0 then '-' else '+') :: Text.decimal power.natAbs

def toChars (x : Double) : List Char :=
  let magnitude := if x.significand = 0 then "0.0".toList else decimalChars x.shortest
  if x.isNegative then '-' :: magnitude else magnitude

def toString (x : Double) : String := String.ofList x.toChars

end Rollback.Double
