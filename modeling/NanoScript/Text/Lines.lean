/-!
Contract: the lines of a text, and the line and column of a position in it.

Owns:
- the characters that end a line, a carriage return and the newline after it counting as one end;
- the place of a character offset, both numbers counted from one.

A line includes the characters that end it.  A line end at the very end of a text starts no
further line, so the offset behind it still lies on the line it ends.
-/

namespace NanoScript.Text

/-- Whether a character ends the line it stands on. -/
def endsLine (c : Char) : Bool :=
  let code := c.toNat
  (10 ≤ code && code ≤ 13) || code = 0x85 || code = 0x2028 || code = 0x2029

/-- A line and a column, counted from one. -/
structure Place where
  line : Nat
  column : Nat
deriving DecidableEq

/-- The written form of a place. -/
def Place.text (place : Place) : String :=
  toString place.line ++ ":" ++ toString place.column

/-- The place of the character `offset` characters further on than one that stands at `place`. -/
def placeFrom (place : Place) : (offset : Nat) → List Char → Place
  | 0, _ => place
  | _ + 1, [] => place
  | _ + 1, [_] => ⟨place.line, place.column + 1⟩
  | offset + 1, c :: next :: rest =>
      if endsLine c ∧ ¬ (c = '\r' ∧ next = '\n') then
        placeFrom ⟨place.line + 1, 1⟩ offset (next :: rest)
      else
        placeFrom ⟨place.line, place.column + 1⟩ offset (next :: rest)

/-- The place of a character offset; an offset behind the text is taken as its end. -/
def placeOf (text : String) (offset : Nat) : Place :=
  placeFrom ⟨1, 1⟩ offset text.toList

example : placeOf "a\r\nb" 3 = ⟨2, 1⟩ := by decide +kernel
example : placeOf "(\n" 2 = ⟨1, 3⟩ := by decide +kernel

end NanoScript.Text
