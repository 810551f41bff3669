/-!
# Binary floating-point numbers

A number in the binary64 format, kept as its 64 bits so that equality is decidable and its exact
value can be computed with whole numbers: the value is `significand · 2 ^ exponent`, with a sign.
-/

namespace Rollback

structure Double where
  bits : UInt64
  deriving DecidableEq

namespace Double

instance : Inhabited Double := ⟨⟨0⟩⟩

def isNegative (x : Double) : Bool := UInt64.size ≤ 2 * x.bits.toNat

/-- The weight of the bit in front of the fraction's 52 bits. -/
def leadingBit : Nat := 4503599627370496

def exponentField (x : Double) : Nat := x.bits.toNat / leadingBit % 2048

def fractionField (x : Double) : Nat := x.bits.toNat % leadingBit

def isFinite (x : Double) : Bool := x.exponentField < 2047

/-- The whole number that the power of two in `exponent` scales. -/
def significand (x : Double) : Nat :=
  if x.exponentField = 0 then x.fractionField else leadingBit + x.fractionField

def exponent (x : Double) : Int :=
  if x.exponentField = 0 then -1074 else (x.exponentField : Int) - 1075

def toFloat (x : Double) : Float := Float.ofBits x.bits

def ofFloat (x : Float) : Double := ⟨x.toBits⟩

/-- Equal as numbers: the two zeros are equal and an undefined result equals nothing. -/
def equals (x y : Double) : Bool := x.toFloat == y.toFloat

/-- The power of ten nearest to which a literal is scaled. -/
def powerOfTen (k : Nat) : Float := Float.ofScientific 1 false k

/-- `x` scaled by ten to the power `k`; nothing if that overflows. A power below the least power
of ten that is no zero is reached in steps. -/
def scale (x : Float) : (fuel : Nat) → (k : Int) → Option Float
  | 0, _ => some x
  | fuel + 1, k =>
    if k.natAbs ≤ 308 then
      if 0 ≤ k then
        let y := x * powerOfTen k.toNat
        if y.isInf then none else some y
      else some (x / powerOfTen k.natAbs)
    else if x == 0.0 then some x
    else if 0 ≤ k then none
    else scale (x / powerOfTen 308) fuel (k + 308)

/-- The number that a literal with this sign, these leading digits and this power of ten denotes:
the digits are rounded to a binary number first and the product is rounded again. -/
def ofLiteral (negative : Bool) (digits : UInt64) (k : Int) : Option Double :=
  (scale digits.toFloat (k.natAbs / 308 + 2) k).map fun x => ofFloat (if negative then -x else x)

def zero (negative : Bool) : Double := ofFloat (if negative then -0.0 else 0.0)

end Double

end Rollback
