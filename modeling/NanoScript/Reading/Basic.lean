import NanoScript.Phrase.Basic
import NanoScript.SyntaxError

/-!
Contract: reading from the front of a list of tokens.

Owns:
- the result of a reader: a value and the tokens it left, fewer than a bound that the type names;
- a look at the next token, and the reader for one token of a given kind.

A list of tokens need not end in the end-of-input mark: behind the last token every reader finds
the end of input, and where a token is needed there, the failure points behind the last one.
-/

namespace NanoScript

/-- A value read from the front of a list of tokens, and the tokens after it, fewer than
`bound`. -/
structure Parsed (α : Type) (bound : Nat) where
  value : α
  rest : List Token
  fewer : rest.length < bound

/-- What reading yields: a value and the tokens after it, or a failure. -/
abbrev Reading (α : Type) (bound : Nat) : Type :=
  Except SyntaxError (Parsed α bound)

namespace Reading

/-- The kind of the next token; there is an end of input behind the last one. -/
def nextKind : List Token → Token.Kind
  | [] => .endOfInput
  | token :: _ => token.kind

/-- The operator that comes next, if one does. -/
def nextOperator? : List Token → Option Operator
  | [] => none
  | token :: _ => if token.kind = .binaryOperator then Operator.ofSymbol? token.text else none

/-- The tokens without a semicolon at their front. -/
def dropSemicolon : List Token → List Token
  | [] => []
  | token :: rest => if token.kind = .semicolon then rest else token :: rest

theorem length_dropSemicolon_le (tokens : List Token) :
    (dropSemicolon tokens).length ≤ tokens.length := by
  unfold dropSemicolon
  split
  · exact Nat.le_refl _
  · split <;> simp

/-- Read a token of one kind.  `behind` is the place behind all tokens. -/
def expect (behind : Span) (kind : Token.Kind) (expected : Expectation) :
    (tokens : List Token) → Reading Token tokens.length
  | [] => .error (.unexpectedEnd expected behind)
  | token :: rest =>
      if token.kind = kind then .ok ⟨token, rest, Nat.lt_succ_self _⟩
      else .error (.atToken token expected)

/-- The place behind a list of tokens. -/
def behindAll (tokens : List Token) : Span :=
  match tokens.getLast? with
  | some last => .empty last.span.stop
  | none => .empty 0

end Reading

end NanoScript
