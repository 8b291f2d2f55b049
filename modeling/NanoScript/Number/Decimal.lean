import NanoScript.Number.Rounding

/-!
Contract: decimal fractions, the values that numerals stand for.

Owns:
- a decimal fraction as a whole number times a power of ten, and its form without trailing
  zeros;
- the number nearest to it;
- its digits, written out with a fraction mark where one is needed.

Does not own: which decimal fraction represents a number.
-/

namespace NanoScript

/-- The value `digits * 10 ^ exponent`. -/
structure Decimal where
  digits : Nat
  exponent : Int
deriving DecidableEq, Inhabited

namespace Decimal

/-- How many decimal digits a whole number has; zero has one. -/
def digitCount (whole : Nat) : Nat :=
  (Nat.toDigits 10 whole).length

/-- Every positive decimal fraction below `10 ^ (-lowestMagnitude)` rounds to zero, and every
one from `10 ^ lowestMagnitude` on to infinity. -/
def lowestMagnitude : Nat :=
  400

/-- The rank of the number nearest to a decimal fraction.  Exponents far out of reach are
decided without computing their power of ten. -/
def rank (decimal : Decimal) : Nat :=
  if decimal.digits = 0 then 0
  else if 0 ≤ decimal.exponent then
    if lowestMagnitude ≤ decimal.exponent.toNat then Number.infinityRank
    else Number.nearestRank (decimal.digits * Nat.pow 10 decimal.exponent.toNat) 1
  else if digitCount decimal.digits + lowestMagnitude ≤ (-decimal.exponent).toNat then 0
  else Number.nearestRank decimal.digits (Nat.pow 10 (-decimal.exponent).toNat)

/-- Move the zeros at the end of the digits into the exponent, at most `fuel` of them. -/
def dropZeros : (fuel : Nat) → Decimal → Decimal
  | 0, decimal => decimal
  | fuel + 1, decimal =>
      if decimal.digits ≠ 0 ∧ decimal.digits % 10 = 0 then
        dropZeros fuel ⟨decimal.digits / 10, decimal.exponent + 1⟩
      else decimal

/-- The form of a decimal fraction whose digits do not end in a zero. -/
def normalized (decimal : Decimal) : Decimal :=
  dropZeros (digitCount decimal.digits) decimal

/-- How many places of the written form stand before the fraction mark; zero or fewer if the
value is below one tenth or so. -/
def pointPosition (decimal : Decimal) : Int :=
  digitCount decimal.digits + decimal.exponent

/-- The digits with the fraction mark in its place, and without one for a whole number. -/
def positional (decimal : Decimal) : List Char :=
  let figures := Nat.toDigits 10 decimal.digits
  if 0 ≤ decimal.exponent then
    figures ++ List.replicate decimal.exponent.toNat '0'
  else if 0 < decimal.pointPosition then
    figures.take decimal.pointPosition.toNat ++ '.' :: figures.drop decimal.pointPosition.toNat
  else
    '0' :: '.' :: List.replicate (-decimal.pointPosition).toNat '0' ++ figures

end Decimal

end NanoScript
