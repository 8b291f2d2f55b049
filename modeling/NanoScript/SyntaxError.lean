import NanoScript.Token.Scan

/-!
Contract: why a text is no program.

Owns:
- what a reader can be waiting for when another token comes;
- the causes of failure, the bytes each points at, and what is said about each.
-/

namespace NanoScript

/-- What a reader waits for. -/
inductive Expectation where
  | variableName
  | initializer
  | declarationEnd
  | functionName
  | argumentsOpening
  | argumentsClosing
  | bodyOpening
  | bodyClosing
  | entryKey
  | entryColon
  | entryEnd
  | objectClosing
  | memberName
  | memberClosing
  | groupClosing
  | operand
  | programEnd
deriving DecidableEq

/-- How messages name what a reader waits for. -/
def Expectation.text : Expectation → String
  | .variableName => "identifier name following 'let' or 'const'"
  | .initializer => "'=' or ';' following identifier in variable declaration"
  | .declarationEnd => "';' at the end of variable declaration"
  | .functionName => "function name following 'fn'"
  | .argumentsOpening => "'(' to open argument list"
  | .argumentsClosing => "')' to close argument list"
  | .bodyOpening => "'\x7b' to open function body"
  | .bodyClosing => "'\x7d' to close function body"
  | .entryKey => "object literal key"
  | .entryColon => "':' following identifier in object literal"
  | .entryEnd => "',' or '\x7d' following property"
  | .objectClosing => "'\x7d' to close object literal"
  | .memberName => "identifier following '.'"
  | .memberClosing => "']' to close computed member access"
  | .groupClosing => "')' to close parenthesized expression"
  | .operand => "an identifier, a number or '('"
  | .programEnd => "end of input"

/-- Why a text, or a list of tokens, is no program. -/
inductive SyntaxError where
  | unexpectedToken (found : Token) (expected : Expectation)
  | unexpectedEnd (expected : Expectation) (span : Span)
  | unrecognizedCharacter (fault : Token.Unrecognized)
  | constantWithoutValue (name : String) (span : Span)
  | parameterNotAName (span : Span)
  | malformedNumber (text : String) (span : Span)
deriving DecidableEq

namespace SyntaxError

/-- The bytes that a failure points at. -/
def span : SyntaxError → Span
  | .unexpectedToken found _ => found.span
  | .unexpectedEnd _ span => span
  | .unrecognizedCharacter fault => fault.span
  | .constantWithoutValue _ span => span
  | .parameterNotAName span => span
  | .malformedNumber _ span => span

/-- What is said about a failure. -/
def message : SyntaxError → String
  | .unexpectedToken found expected =>
      "Parse Error: Unexpected token " ++ found.description ++ ", expected " ++ expected.text
  | .unexpectedEnd expected _ =>
      "Parse Error: Unexpected end of input during parsing. Expected " ++ expected.text
  | .unrecognizedCharacter fault => "Lexer Error during parse: " ++ fault.message
  | .constantWithoutValue name span =>
      "Parse Error [at " ++ span.text ++ "]: constant '" ++ name ++ "' must be given a value"
  | .parameterNotAName span =>
      "Parse Error [at " ++ span.text ++ "]: function parameters must be plain identifiers"
  | .malformedNumber text span =>
      "Parse Error [at " ++ span.text ++ "]: invalid number literal '" ++ text ++ "'"

/-- The failure at a token where something else was expected. -/
def atToken (found : Token) (expected : Expectation) : SyntaxError :=
  if found.kind = .endOfInput then .unexpectedEnd expected found.span
  else .unexpectedToken found expected

end SyntaxError

end NanoScript
