import NanoScript.Program
import NanoScript.Text.Lines

/-!
Contract: the report of a failed run.

Owns:
- the headline of each cause of failure and the label at the place it points at;
- the place, as the name of the text with a line and a column.

A place is shown only if the text reaches that far.  The first byte offset of the range is taken
as a character offset; the two agree as long as the text before the place is plain ASCII.
-/

namespace NanoScript

/-- The two texts of a report. -/
structure Diagnostic where
  headline : String
  label : String
  span : Span
deriving DecidableEq

/-- A name inside a headline. -/
def Diagnostic.marked (name : String) : String :=
  "\x60" ++ name ++ "\x60"

/-- The report of a misused name. -/
def ScopeError.diagnostic (error : ScopeError) (span : Span) : Diagnostic :=
  match error with
  | .unresolved name =>
      ⟨"Unresolved identifier " ++ Diagnostic.marked name,
        "This name is not declared in any enclosing scope", span⟩
  | .alreadyDeclared name =>
      ⟨Diagnostic.marked name ++ " is already declared", "Redeclared in the same scope here", span⟩
  | .constantReassigned name =>
      ⟨"Cannot re-assign constant " ++ Diagnostic.marked name,
        "This assignment targets a constant", span⟩

/-- The report of a failed evaluation. -/
def Fault.diagnostic : Fault → Diagnostic
  | .scope error span => error.diagnostic span
  | .divisionByZero span => ⟨"Division by zero", "The right operand evaluates to 0", span⟩
  | .invalidAssignmentTarget span =>
      ⟨"Invalid assignment target", "Only identifiers can be assigned to", span⟩
  | .arityMismatch name expected found span =>
      ⟨"Wrong number of arguments to " ++ Diagnostic.marked name,
        "Expected " ++ toString expected ++ " arguments, found " ++ toString found, span⟩
  | .notAFunction found span =>
      ⟨"Not a function: " ++ found.name, "This expression cannot be called", span⟩
  | .notAnObject found span =>
      ⟨"Not an object: " ++ found.name, "Properties can only be read from objects", span⟩
  | .invalidPropertyKey found span =>
      ⟨"Invalid property key", "Expected a number or boolean key, found " ++ found.name, span⟩
  | .native message span => ⟨"Native function failed", message, span⟩

/-- The report of a text that is no program. -/
def SyntaxError.diagnostic : SyntaxError → Diagnostic
  | .unexpectedToken found expected =>
      ⟨"Unexpected token: " ++ found.description, "Expected " ++ expected.text, found.span⟩
  | .unexpectedEnd expected span =>
      ⟨"Unexpected end of input", "Expected " ++ expected.text, span⟩
  | .unrecognizedCharacter fault => ⟨"Lexer Error", fault.message, fault.span⟩
  | .constantWithoutValue name span =>
      ⟨"Constant " ++ Diagnostic.marked name ++ " has no value",
        "Constants must be initialised when declared", span⟩
  | .parameterNotAName span =>
      ⟨"Invalid function parameter", "Parameters must be plain identifiers", span⟩
  | .malformedNumber text span =>
      ⟨"Invalid number literal", Diagnostic.marked text ++ " is not a valid number", span⟩

/-- The report of a failed run. -/
def Failure.diagnostic : Failure → Diagnostic
  | .syntaxError error => error.diagnostic
  | .fault cause => cause.diagnostic
  | .tooDeep => ⟨"Calls are nested too deeply", "", .empty 0⟩

namespace Diagnostic

/-- The range that is marked: an empty one is widened to one column. -/
def markedRange (diagnostic : Diagnostic) : Span :=
  if diagnostic.span.start = diagnostic.span.stop then
    ⟨diagnostic.span.start, diagnostic.span.start + 1⟩
  else diagnostic.span

/-- Whether a text reaches far enough for the marked range to be shown in it. -/
def canBeShown (diagnostic : Diagnostic) (source : String) : Bool :=
  decide (diagnostic.markedRange.stop - 1 ≤ source.length)

/-- The place of a report in a named text. -/
def location? (diagnostic : Diagnostic) (name source : String) : Option String :=
  if diagnostic.canBeShown source then
    some (name ++ ":" ++ (Text.placeOf source diagnostic.span.start).text)
  else none

end Diagnostic

end NanoScript
