import NanoScript.Scope.Basic

/-!
Contract: why the evaluation of a phrase fails.

Owns the causes of failure, the bytes each points at, and what is said about each.
-/

namespace NanoScript

/-- What stands where a property key was needed: a value of some form, or a phrase that is no
name. -/
inductive Fault.Key where
  | value (kind : Value.Kind)
  | phrase (kind : Phrase.Kind)
deriving DecidableEq

/-- How messages name what stands where a property key was needed. -/
def Fault.Key.name : Fault.Key → String
  | .value kind => kind.name
  | .phrase kind => kind.name

/-- Why the evaluation of a phrase fails. -/
inductive Fault where
  | scope (error : ScopeError) (span : Span)
  | divisionByZero (span : Span)
  | invalidAssignmentTarget (span : Span)
  | arityMismatch (name : String) (expected found : Nat) (span : Span)
  | notAFunction (found : Value.Kind) (span : Span)
  | notAnObject (found : Value.Kind) (span : Span)
  | invalidPropertyKey (found : Fault.Key) (span : Span)
  | native (message : String) (span : Span)
deriving DecidableEq

namespace Fault

/-- The bytes that a failure points at. -/
def span : Fault → Span
  | .scope _ span => span
  | .divisionByZero span => span
  | .invalidAssignmentTarget span => span
  | .arityMismatch _ _ _ span => span
  | .notAFunction _ span => span
  | .notAnObject _ span => span
  | .invalidPropertyKey _ span => span
  | .native _ span => span

/-- What is said about a failure. -/
def message : Fault → String
  | .scope error _ => error.message
  | .divisionByZero _ => "Division by zero"
  | .invalidAssignmentTarget _ =>
      "Invalid assignment target: only identifiers can be assigned to"
  | .arityMismatch name expected found _ =>
      "Function '" ++ name ++ "' expects " ++ toString expected ++ " arguments, got " ++
        toString found
  | .notAFunction found _ => "Expected a function, but got a " ++ found.name
  | .notAnObject found _ => "Cannot read a property of a " ++ found.name
  | .invalidPropertyKey found _ =>
      "Property keys must be numbers or booleans, got a " ++ found.name
  | .native message _ => message

end Fault

end NanoScript
