import NanoScript.Number.Decimal

/-!
Contract: the shortest decimal fraction that reads back as a number.

Owns:
- the two neighbours of a number on the grid of decimal fractions with a given count of digits;
- the choice between them: the nearer one that reads back, a tie decided by the caller;
- the search for the least count of digits that has such a neighbour.

Every fraction returned by the search reads back as the number it was made from, because reading
back is the test it has to pass.  Should no fraction of up to seventeen digits pass it, the exact
value is returned.
-/

namespace NanoScript

/-- Which of two equally near decimal fractions represents a number. -/
inductive Decimal.Tie where
  | upward
  | toEven
deriving DecidableEq

namespace Number

/-- The value of a finite rank as a fraction of whole numbers. -/
def fraction (rank : Nat) : Nat × Nat :=
  if 0 ≤ exponent rank then (significand rank * Nat.pow 2 (exponent rank).toNat, 1)
  else (significand rank, Nat.pow 2 (-exponent rank).toNat)

/-- The value of a finite rank with all its decimal digits. -/
def exactDecimal (rank : Nat) : Decimal :=
  if 0 ≤ exponent rank then ⟨significand rank * Nat.pow 2 (exponent rank).toNat, 0⟩
  else ⟨significand rank * Nat.pow 5 (-exponent rank).toNat, exponent rank⟩

/-- The place of the first decimal digit of a positive fraction: one for the units, two for the
tens, zero for the tenths. -/
def leadingPlace (numerator denominator : Nat) : Int :=
  if denominator ≤ numerator then Decimal.digitCount (numerator / denominator)
  else 1 - (Decimal.digitCount ((denominator - 1) / numerator) : Int)

/-- Of two neighbours on a grid, the nearer one to the fraction between them.  `twiceRest` is
twice the distance to the lower one in units where the grid is `spacing` wide. -/
def nearerNeighbour (tie : Decimal.Tie) (twiceRest spacing : Nat) (below above : Decimal) :
    Decimal :=
  if twiceRest < spacing then below
  else if spacing < twiceRest then above
  else
    match tie with
    | .upward => above
    | .toEven => if below.digits % 2 = 0 then below else above

/-- The best decimal fraction with at most `count` digits that reads back as `rank`, if one
does. -/
def representative? (tie : Decimal.Tie) (rank count : Nat) : Option Decimal :=
  let (numerator, denominator) := fraction rank
  let place : Int := leadingPlace numerator denominator - count
  let scaled := if 0 ≤ place then numerator else numerator * Nat.pow 10 (-place).toNat
  let spacing := if 0 ≤ place then denominator * Nat.pow 10 place.toNat else denominator
  let below : Decimal := ⟨scaled / spacing, place⟩
  let above : Decimal := ⟨scaled / spacing + 1, place⟩
  match decide (below.rank = rank), decide (above.rank = rank) with
  | true, true => some (nearerNeighbour tie (2 * (scaled % spacing)) spacing below above)
  | true, false => some below
  | false, true => some above
  | false, false => none

/-- The shortest decimal fraction that reads back as a finite rank. -/
def shortestDecimal (tie : Decimal.Tie) (rank : Nat) : Decimal :=
  let found := (List.range 17).findSome? fun index => representative? tie rank (index + 1)
  (found.getD (exactDecimal rank)).normalized

end Number

end NanoScript
