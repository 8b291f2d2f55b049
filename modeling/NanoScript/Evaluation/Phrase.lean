import NanoScript.Evaluation.Basic
import NanoScript.Number.Arithmetic
import NanoScript.Value.Text

/-!
Contract: the value of a phrase in a scope.

Owns the order of evaluation and the rules for each form of phrase:
- statements run in order, and the last one gives the value;
- operands that are not both numbers give the absent value, even to a division by zero;
- only a name can be assigned to, which is checked before the assigned value is computed;
- the arguments of a call are computed before the function that is called;
- the key of a member access is computed before its object is found to have members, and a
  property that is not there reads as the absent value.

How functions run is left to an invoker, so that a phrase is evaluated by recursion on its form.
-/

namespace NanoScript

/-- In which text the evaluated phrases stand, and how functions run: a declared function on
arguments and with the place of the call, a function of the host on arguments and with the scope of
the call. -/
structure Invoker where
  text : Nat
  function : Function → List Value → Span → Evaluation Value
  native : NativeFunction → List Value → ScopeId → Evaluation Value

/-- The same for phrases of another text. -/
def Invoker.within (invoker : Invoker) (text : Nat) : Invoker :=
  { invoker with text := text }

namespace Evaluation

/-- The result of an operator on numbers. -/
def arithmetic (operator : Operator) (left right : Number) (span : Span) : Evaluation Value :=
  match operator with
  | .add => return .number (left.add right)
  | .subtract => return .number (left.subtract right)
  | .multiply => return .number (left.multiply right)
  | .divide =>
      if right.isZero then fail (.divisionByZero span) else return .number (left.divide right)
  | .modulo =>
      if right.isZero then fail (.divisionByZero span) else return .number (left.remainder right)

/-- The result of an operator on any values. -/
def operate (operator : Operator) (left right : Value) (span : Span) : Evaluation Value :=
  match left, right with
  | .number left, .number right => arithmetic operator left right span
  | _, _ => return .null

/-- The key that a computed member access reads. -/
def propertyKey (key : Value) (span : Span) : Evaluation String :=
  match key with
  | .number _ | .boolean _ => return key.text
  | other => fail (.invalidPropertyKey (.value other.kind) span)

/-- The property of a value under a key. -/
def readProperty (object : Value) (key : String) (span : Span) : Evaluation Value :=
  match object with
  | .object properties => return (properties.find? key).getD .null
  | other => fail (.notAnObject other.kind span)

/-- Call a value. -/
def callValue (invoker : Invoker) (scope : ScopeId) (callee : Value) (arguments : List Value)
    (calleeSpan callSpan : Span) : Evaluation Value :=
  match callee with
  | .function function => invoker.function function arguments callSpan
  | .native function => invoker.native function arguments scope
  | other => fail (.notAFunction other.kind calleeSpan)

end Evaluation

mutual

/-- The value of a phrase in a scope. -/
def Phrase.evaluate (invoker : Invoker) (scope : ScopeId) : Phrase → Evaluation Value
  | .program body _ => Phrase.evaluateBlock invoker scope .null body
  | .variableDeclaration name (some value) constant span => do
      let value ← value.evaluate invoker scope
      Evaluation.declare scope name value constant span
  | .variableDeclaration name none constant span =>
      Evaluation.declare scope name .null constant span
  | .functionDeclaration name parameters body span =>
      Evaluation.declare scope name
        (.function ⟨name, parameters, body, ⟨invoker.text, span⟩, scope⟩) true span
  | .identifier name span => Evaluation.lookup scope name span
  | .numericLiteral value _ => return .number value
  | .binary left operator right span => do
      let left ← left.evaluate invoker scope
      let right ← right.evaluate invoker scope
      Evaluation.operate operator left right span
  | .assignment target value _ =>
      match target.name? with
      | none => Evaluation.fail (.invalidAssignmentTarget target.span)
      | some name => do
          let value ← value.evaluate invoker scope
          Evaluation.assign scope name value target.span
  | .objectLiteral entries _ => do
      let properties ← Entry.evaluateAll invoker scope .empty entries
      return .object properties
  | .call callee arguments span => do
      let arguments ← Phrase.evaluateAll invoker scope arguments
      let function ← callee.evaluate invoker scope
      Evaluation.callValue invoker scope function arguments callee.span span
  | .member object property computed _ => do
      let target ← object.evaluate invoker scope
      if computed then
        let key ← property.evaluate invoker scope
        let key ← Evaluation.propertyKey key property.span
        Evaluation.readProperty target key object.span
      else
        match property.name? with
        | some key => Evaluation.readProperty target key object.span
        | none => Evaluation.fail (.invalidPropertyKey (.phrase property.kind) property.span)

/-- Run statements in order.  The value is that of the last one, `last` if there is none. -/
def Phrase.evaluateBlock (invoker : Invoker) (scope : ScopeId) (last : Value) :
    List Phrase → Evaluation Value
  | [] => return last
  | statement :: rest => do
      let value ← statement.evaluate invoker scope
      Phrase.evaluateBlock invoker scope value rest

/-- The values of phrases, computed in order. -/
def Phrase.evaluateAll (invoker : Invoker) (scope : ScopeId) :
    List Phrase → Evaluation (List Value)
  | [] => return []
  | phrase :: rest => do
      let value ← phrase.evaluate invoker scope
      let values ← Phrase.evaluateAll invoker scope rest
      return value :: values

/-- The value of an entry; a key alone reads the variable of that name. -/
def Entry.evaluate (invoker : Invoker) (scope : ScopeId) : Entry → Evaluation Value
  | .shorthand key span => Evaluation.lookup scope key span
  | .keyed _ value _ => value.evaluate invoker scope

/-- Enter the values of entries into a table in order. -/
def Entry.evaluateAll (invoker : Invoker) (scope : ScopeId) (properties : Table Value) :
    List Entry → Evaluation (Table Value)
  | [] => return properties
  | entry :: rest => do
      let value ← entry.evaluate invoker scope
      Entry.evaluateAll invoker scope (properties.insert entry.key value) rest

end

end NanoScript
