import NanoScript.Number.Numeral
import NanoScript.Number.Shortest

/-!
Contract: the two written forms of a number.

Owns:
- the plain form, which shows values and programs: the shortest digits that read back, always
  written out in full, without a fraction for a whole number;
- the record form, used in structured records: the same shortest digits, at least one of them
  after the fraction mark, and a power of ten outside a middle range of sizes.

Of two shortest digit strings equally near to the value, the plain form takes the greater and the
record form the one that ends in an even digit.
-/

namespace NanoScript.Number

/-- The plain form. -/
def text (number : Number) : String :=
  if number.isNotANumber then "NaN"
  else
    let sign := if number.isNegative then "-" else ""
    if number.isInfinite then sign ++ "inf"
    else if number.isZero then sign ++ "0"
    else sign ++ String.ofList (shortestDecimal .upward number.rank).positional

/-- The least power of ten that the record form writes out in full. -/
def leastPlainPower : Int :=
  -5

/-- The greatest power of ten that the record form writes out in full. -/
def greatestPlainPower : Int :=
  15

/-- One figure before the fraction mark, the others after it, and the power of ten with its
sign. -/
def scientific (decimal : Decimal) : List Char :=
  let power := decimal.pointPosition - 1
  let sign := if power < 0 then '-' else '+'
  let mantissa :=
    match Nat.toDigits 10 decimal.digits with
    | first :: second :: rest => first :: '.' :: second :: rest
    | figures => figures
  mantissa ++ 'e' :: sign :: Nat.toDigits 10 power.natAbs

/-- The digits of a decimal fraction in the record form. -/
def recordDigits (decimal : Decimal) : List Char :=
  let power := decimal.pointPosition - 1
  if leastPlainPower ≤ power ∧ power ≤ greatestPlainPower then
    if 0 ≤ decimal.exponent then decimal.positional ++ ['.', '0'] else decimal.positional
  else scientific decimal

/-- The record form, for a finite number. -/
def recordText (number : Number) : String :=
  let sign := if number.isNegative then "-" else ""
  if number.isZero then sign ++ "0.0"
  else sign ++ String.ofList (recordDigits (shortestDecimal .toEven number.rank))

/-! ## At the limits of the middle range, and halfway between two digit strings -/

example : (read? "1e21").map text = some "1000000000000000000000" := by decide +kernel
example : (read? "2.5e-7").map text = some "0.00000025" := by decide +kernel
example : (read? "-0").map text = some "-0" := by decide +kernel

example : (read? "1e15").map recordText = some "1000000000000000.0" := by decide +kernel
example : (read? "1e16").map recordText = some "1e+16" := by decide +kernel
example : (read? "0.00001").map recordText = some "0.00001" := by decide +kernel
example : (read? "0.0000015").map recordText = some "1.5e-6" := by decide +kernel

example : (read? "72260276867999.625").map text = some "72260276867999.63" := by decide +kernel
example : (read? "72260276867999.625").map recordText = some "72260276867999.62" := by
  decide +kernel

end NanoScript.Number
