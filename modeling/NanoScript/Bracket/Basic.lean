/-!
Contract: brackets, the characters that open and close a part of a text.

Owns the three shapes of brackets and the two sides of each.
-/

namespace NanoScript

/-- The shapes of brackets. -/
inductive Bracket.Shape where
  | round
  | square
  | curly
deriving DecidableEq

namespace Bracket

/-- The shape that a character opens. -/
def opened? (c : Char) : Option Shape :=
  match c with
  | '(' => some .round
  | '[' => some .square
  | '\x7b' => some .curly
  | _ => none

/-- The shape that a character closes. -/
def closed? (c : Char) : Option Shape :=
  match c with
  | ')' => some .round
  | ']' => some .square
  | '\x7d' => some .curly
  | _ => none

/-- No character opens one bracket and closes another. -/
theorem closed?_eq_none_of_opened? {c : Char} {shape : Shape} (opens : opened? c = some shape) :
    closed? c = none := by
  unfold opened? at opens
  split at opens <;> first | rfl | cases opens

end Bracket

end NanoScript
