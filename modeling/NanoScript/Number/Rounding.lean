import NanoScript.Number.Basic

/-!
Contract: the binary64 number nearest to a positive fraction.

Owns:
- division of whole numbers to the nearest whole number, a half going to the even neighbour;
- the rank of the nearest number, subnormal numbers and overflow to infinity included.

The exponent is chosen first, so that the quotient has 53 binary digits or, for the least
numbers, fewer.  A quotient that rounds up to 54 digits needs no correction: it lands on the
first rank of the next exponent.
-/

namespace NanoScript.Number

/-- The whole number nearest to a fraction; of two equally near the even one. -/
def roundedQuotient (numerator denominator : Nat) : Nat :=
  let quotient := numerator / denominator
  let twiceRest := 2 * (numerator % denominator)
  if twiceRest < denominator then quotient
  else if denominator < twiceRest then quotient + 1
  else quotient + quotient % 2

/-- Whether a fraction is at least a power of two. -/
def reachesPowerOfTwo (numerator denominator : Nat) (power : Int) : Bool :=
  if 0 ≤ power then
    decide (denominator * Nat.pow 2 power.toNat ≤ numerator)
  else
    decide (denominator ≤ numerator * Nat.pow 2 (-power).toNat)

/-- The exponent of the greatest power of two that a positive fraction reaches. -/
def binaryMagnitude (numerator denominator : Nat) : Int :=
  let estimate : Int := (numerator.log2 : Int) - (denominator.log2 : Int)
  if reachesPowerOfTwo numerator denominator estimate then estimate else estimate - 1

/-- A fraction in units of a power of two, rounded to a whole number. -/
def roundedUnits (numerator denominator : Nat) (power : Int) : Nat :=
  if 0 ≤ power then
    roundedQuotient numerator (denominator * Nat.pow 2 power.toNat)
  else
    roundedQuotient (numerator * Nat.pow 2 (-power).toNat) denominator

/-- The rank of the number nearest to a fraction, a tie going to the even rank. -/
def nearestRank (numerator denominator : Nat) : Nat :=
  if numerator = 0 then 0
  else
    let power := max (binaryMagnitude numerator denominator - 52) leastExponent
    let rank :=
      (power - leastExponent).toNat * ranksPerExponent + roundedUnits numerator denominator power
    min rank infinityRank

end NanoScript.Number
