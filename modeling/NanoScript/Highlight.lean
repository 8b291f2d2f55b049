import NanoScript.Bracket.Pair
import NanoScript.Token.Scan

/-!
Contract: a line shown in colours.

Owns:
- the paint of each token: the pair of brackets at the cursor, keywords and numbers stand out;
- the cut of a line into painted segments, which together are the line;
- the terminal codes of the paints.

A line that cannot be cut into tokens is shown as it is.
-/

namespace NanoScript

/-- How a segment of a line is shown. -/
inductive Paint where
  | plain
  | bracket
  | keyword
  | number
deriving DecidableEq

/-- The terminal code that starts a paint; the plain one needs none. -/
def Paint.code? : Paint → Option String
  | .plain => none
  | .bracket => some "1;34"
  | .keyword => some "35"
  | .number => some "33"

/-- Text with the terminal codes of a paint around it. -/
def Paint.apply (paint : Paint) (text : String) : String :=
  match paint.code? with
  | none => text
  | some code => "\x1b[" ++ code ++ "m" ++ text ++ "\x1b[0m"

namespace Highlight

/-- A part of a line in one paint. -/
structure Segment where
  paint : Paint
  text : List Char

/-- The paint of a token, with the pair of brackets at the cursor. -/
def paintOf (pair : Option Bracket.Pair) (token : Token) : Paint :=
  let isPaired :=
    pair.any fun pair =>
      decide (token.span.start = pair.opening ∨ token.span.start = pair.closing)
  if isPaired then .bracket
  else if token.kind.isKeyword then .keyword
  else if token.kind = .number then .number
  else .plain

/-- Cut the rest of a line, which starts at a byte offset, at its tokens. -/
def segmentsFrom (pair : Option Bracket.Pair) (offset : Nat) (line : List Char) :
    List Token → List Segment
  | [] => [⟨.plain, line⟩]
  | token :: rest =>
      if token.kind = .endOfInput then segmentsFrom pair offset line rest
      else
        let (gap, fromToken) := Text.splitAtByte (token.span.start - offset) line
        let (text, behind) := Text.splitAtByte token.span.length fromToken
        ⟨.plain, gap⟩ :: ⟨paintOf pair token, text⟩ ::
          segmentsFrom pair token.span.stop behind rest

/-- The segments of a line with the cursor at a byte offset. -/
def segments (line : String) (cursor : Nat) : List Segment :=
  match Token.scan line with
  | .error _ => [⟨.plain, line.toList⟩]
  | .ok tokens => segmentsFrom (Bracket.pairAt? line cursor) 0 line.toList tokens

/-- Segments with their terminal codes. -/
def render (segments : List Segment) : String :=
  String.join (segments.map fun segment => segment.paint.apply (String.ofList segment.text))

end Highlight

/-- A line with terminal codes, the cursor standing at a byte offset. -/
def highlight (line : String) (cursor : Nat) : String :=
  Highlight.render (Highlight.segments line cursor)

end NanoScript
