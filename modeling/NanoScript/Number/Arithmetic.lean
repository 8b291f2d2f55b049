import NanoScript.Number.Rounding

/-!
Contract: arithmetic on numbers.

Owns:
- sum, difference, product and quotient, correctly rounded;
- the remainder of a division that rounds towards zero, which is exact and keeps the sign of the
  dividend, also when it is zero.
-/

namespace NanoScript.Number

/-- The machine number with the same bits. -/
def toFloat (number : Number) : Float :=
  Float.ofBits number.bits

/-- The number with the bits of a machine number. -/
def ofFloat (value : Float) : Number :=
  ⟨value.toBits⟩

def add (left right : Number) : Number :=
  ofFloat (left.toFloat + right.toFloat)

def subtract (left right : Number) : Number :=
  ofFloat (left.toFloat - right.toFloat)

def multiply (left right : Number) : Number :=
  ofFloat (left.toFloat * right.toFloat)

def divide (left right : Number) : Number :=
  ofFloat (left.toFloat / right.toFloat)

/-- The rank of `units * 2 ^ power`. -/
def rankOfUnits (units : Nat) (power : Int) : Nat :=
  if 0 ≤ power then nearestRank (units * Nat.pow 2 power.toNat) 1
  else nearestRank units (Nat.pow 2 (-power).toNat)

/-- The rank of the remainder of one finite rank by another.  Both values are whole numbers of
the smaller of their two powers of two, and so is the remainder. -/
def remainderRank (dividend divisor : Nat) : Nat :=
  let power := min (exponent dividend) (exponent divisor)
  let units (rank : Nat) : Nat := significand rank * Nat.pow 2 (exponent rank - power).toNat
  rankOfUnits (units dividend % units divisor) power

/-- What a division leaves over when its quotient is cut to a whole number.  There is no such
number for an infinite dividend or a divisor of zero; an infinite divisor leaves the dividend. -/
def remainder (dividend divisor : Number) : Number :=
  if dividend.isNotANumber || divisor.isNotANumber || dividend.isInfinite || divisor.isZero then
    notANumber
  else if divisor.isInfinite then dividend
  else ofRank dividend.isNegative (remainderRank dividend.rank divisor.rank)

end NanoScript.Number
