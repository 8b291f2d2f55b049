import NanoScript.Number.Decimal

/-!
Contract: reading numbers from text.

Owns the grammar of numerals: an optional sign; then digits with an optional fraction mark that
has a digit on at least one side, and an optional power of ten; or one of the words `inf`,
`infinity` and `nan` in any letter case.  Nothing else is a numeral, blanks and digit groups
included.

The value is the number nearest to the decimal fraction that the numeral writes down.
-/

namespace NanoScript

namespace Decimal

/-- The whole number that a list of digits writes down. -/
def ofDigits (figures : List Char) : Nat :=
  figures.foldl (fun value figure => 10 * value + (figure.toNat - '0'.toNat)) 0

/-- Split off a leading sign; the first part tells whether it is a minus. -/
def splitSign : List Char → Bool × List Char
  | '-' :: rest => (true, rest)
  | '+' :: rest => (false, rest)
  | unsigned => (false, unsigned)

/-- The power of ten at the end of a numeral, zero if there is none. -/
def readExponent? : List Char → Option Int
  | [] => some 0
  | mark :: rest =>
      let (negative, figures) := splitSign rest
      if (mark = 'e' ∨ mark = 'E') ∧ figures ≠ [] ∧ figures.all Char.isDigit then
        some (if negative then -(ofDigits figures : Int) else ofDigits figures)
      else none

/-- Read an unsigned decimal numeral that fills the whole text. -/
def read? (text : List Char) : Option Decimal :=
  let whole := text.takeWhile Char.isDigit
  let afterWhole := text.dropWhile Char.isDigit
  let (fraction, afterFraction) :=
    match afterWhole with
    | '.' :: rest => (rest.takeWhile Char.isDigit, rest.dropWhile Char.isDigit)
    | _ => ([], afterWhole)
  if whole = [] ∧ fraction = [] then none
  else (readExponent? afterFraction).map fun power =>
    ⟨ofDigits (whole ++ fraction), power - fraction.length⟩

end Decimal

namespace Number

/-- Read an unsigned numeral or one of the words for values that have no digits. -/
def readMagnitude? (text : List Char) : Option Nat :=
  let folded := text.map Char.toLower
  if folded = "inf".toList ∨ folded = "infinity".toList then some infinityRank
  else if folded = "nan".toList then some notANumber.rank
  else (Decimal.read? text).map Decimal.rank

/-- Read a numeral that fills the whole text. -/
def read? (text : String) : Option Number :=
  let (negative, magnitude) := Decimal.splitSign text.toList
  (readMagnitude? magnitude).map (ofRank negative)

end Number

end NanoScript
