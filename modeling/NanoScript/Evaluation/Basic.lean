import NanoScript.Fault

/-!
Contract: computations that read and change scopes, print lines, and may fail.

Owns:
- the state that a computation changes, which outlives its failure;
- why a computation stops without a value: a fault of the program, or calls nested deeper than
  allowed;
- the operations on scopes and output as computations.
-/

namespace NanoScript

/-- What a computation can change. -/
structure State where
  store : Store
  output : Array String

/-- Why a computation stops without a value. -/
inductive Stop where
  | fault (fault : Fault)
  | tooDeep
deriving DecidableEq

/-- A computation.  What it changed before it failed stays changed. -/
abbrev Evaluation (α : Type) : Type :=
  EStateM Stop State α

namespace Evaluation

/-- Stop with a fault. -/
def fail {α : Type} (fault : Fault) : Evaluation α :=
  throw (.fault fault)

/-- Print one line. -/
def printLine (line : String) : Evaluation Unit :=
  modify fun state => { state with output := state.output.push line }

/-- The store at this moment. -/
def store : Evaluation Store := do
  return (← get).store

/-- Let a name stand for something in the scope that is found for it, or fail at a place. -/
def bindWhere (find : Store → Except ScopeError ScopeId) (name : String) (binding : Binding)
    (span : Span) : Evaluation Unit := do
  match find (← store) with
  | .ok scope =>
      modify fun ⟨store, output⟩ => ⟨store.bind scope name binding, output⟩
  | .error error => fail (.scope error span)

/-- Read a name, or fail at a place. -/
def lookup (scope : ScopeId) (name : String) (span : Span) : Evaluation Value := do
  match (← store).lookup scope name with
  | .ok value => return value
  | .error error => fail (.scope error span)

/-- Declare a name and return its value, or fail at a place. -/
def declare (scope : ScopeId) (name : String) (value : Value) (constant : Bool) (span : Span) :
    Evaluation Value := do
  bindWhere (fun store => store.declarable scope name) name ⟨value, constant⟩ span
  return value

/-- Declare names one after the other, none of them constant, up to the first that is declared
already. -/
def declareAll (scope : ScopeId) (span : Span) : List (String × Value) → Evaluation Unit
  | [] => return
  | (name, value) :: rest => do
      bindWhere (fun store => store.declarable scope name) name ⟨value, false⟩ span
      declareAll scope span rest

/-- Assign to a name and return its new value, or fail at a place. -/
def assign (scope : ScopeId) (name : String) (value : Value) (span : Span) :
    Evaluation Value := do
  bindWhere (fun store => store.assignable scope name) name ⟨value, false⟩ span
  return value

/-- Make an empty scope inside another one. -/
def addEnclosed (parent : ScopeId) : Evaluation ScopeId :=
  modifyGet fun ⟨store, output⟩ =>
    let (scope, store) := store.addEnclosed parent
    (scope, ⟨store, output⟩)

end Evaluation

end NanoScript
