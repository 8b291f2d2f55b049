import NanoScript.Bracket.Basic

/-!
Contract: whether the brackets of a text close one another.

Owns the verdict on a text: its brackets balance, or some are open at its end, or a closing
bracket matches none that is open.  Of the last kind the first is named.
-/

namespace NanoScript.Bracket

/-- The verdict on the brackets of a text. -/
inductive Verdict where
  | balanced
  | unfinished
  | unmatched (closing : Char) (offset : Nat)
deriving DecidableEq

/-- What is said about a closing bracket that matches none. -/
def Verdict.complaint? : Verdict → Option String
  | .unmatched closing offset =>
      some ("Unmatched '" ++ closing.toString ++ "' at position " ++ toString offset)
  | _ => none

/-- The message below a line that is refused, set off as an item. -/
def Verdict.message? (verdict : Verdict) : Option String :=
  verdict.complaint?.map ("  - " ++ ·)

/-- The verdict on the rest of a text that starts at a byte offset, with the brackets that are
open there, the innermost first. -/
def judgeFrom (openShapes : List Shape) (offset : Nat) : List Char → Verdict
  | [] => if openShapes = [] then .balanced else .unfinished
  | c :: rest =>
      match opened? c, closed? c, openShapes with
      | some shape, _, _ => judgeFrom (shape :: openShapes) (offset + c.utf8Size) rest
      | none, none, _ => judgeFrom openShapes (offset + c.utf8Size) rest
      | none, some _, [] => .unmatched c offset
      | none, some shape, innermost :: others =>
          if innermost = shape then judgeFrom others (offset + c.utf8Size) rest
          else .unmatched c offset

/-- The verdict on a text. -/
def judge (text : String) : Verdict :=
  judgeFrom [] 0 text.toList

end NanoScript.Bracket
