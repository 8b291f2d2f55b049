import NanoScript.Bracket.Basic

/-!
Contract: which brackets of a text belong together.

Owns:
- the pairs of a text, in the order in which they are closed; a closing bracket of another shape
  than the innermost open one uses that one up and makes no pair;
- the pair at a cursor, which stands on a bracket or right behind one.
-/

namespace NanoScript.Bracket

/-- The byte offsets of two brackets that belong together. -/
structure Pair where
  opening : Nat
  closing : Nat
deriving DecidableEq

/-- The pairs that the rest of a text closes, with the brackets that are open before it, the
innermost first. -/
def pairsFrom (openBrackets : List (Shape × Nat)) (offset : Nat) : List Char → List Pair
  | [] => []
  | c :: rest =>
      match opened? c, closed? c, openBrackets with
      | some shape, _, _ => pairsFrom ((shape, offset) :: openBrackets) (offset + c.utf8Size) rest
      | none, none, _ => pairsFrom openBrackets (offset + c.utf8Size) rest
      | none, some _, [] => pairsFrom [] (offset + c.utf8Size) rest
      | none, some shape, (innermost, opening) :: others =>
          let later := pairsFrom others (offset + c.utf8Size) rest
          if innermost = shape then ⟨opening, offset⟩ :: later else later

/-- The pairs of a text. -/
def pairs (text : String) : List Pair :=
  pairsFrom [] 0 text.toList

/-- Whether a cursor stands on an offset or right behind it. -/
def touches (cursor offset : Nat) : Bool :=
  decide (cursor = offset ∨ cursor = offset + 1)

/-- The first pair of which a cursor touches a bracket. -/
def pairAt? (text : String) (cursor : Nat) : Option Pair :=
  (pairs text).find? fun pair => touches cursor pair.opening || touches cursor pair.closing

end NanoScript.Bracket
