import NanoScript.Scope.Basic
import NanoScript.Text.Quoted

/-!
Contract: functions and scopes as a developer inspects them.

Owns the inspected form of functions and of scopes: the parts that can be told apart from the
outside, each under its name, with names between quotes.  What a function does and what a name
stands for are left out.
-/

namespace NanoScript

/-- Names between quotes, as a list. -/
def inspectedNames (names : List String) : String :=
  "[" ++ ", ".intercalate (names.map Text.displayQuoted) ++ "]"

/-- The inspected form of a declared function. -/
def Function.inspected (store : Store) (function : Function) : String :=
  "Function \x7b name: " ++ Text.displayQuoted function.name ++
    ", parameters: " ++ inspectedNames function.parameters ++
    ", scope_depth: " ++ toString (store.depth function.closure) ++ " \x7d"

/-- The inspected form of a function of the host. -/
def NativeFunction.inspected (function : NativeFunction) : String :=
  "NativeFunction(" ++ function.name ++ ")"

/-- The inspected form of a scope. -/
def Store.inspected (store : Store) (id : ScopeId) : String :=
  "Environment \x7b depth: " ++ toString (store.depth id) ++
    ", variables: " ++ inspectedNames (store.declaredNames id) ++ " \x7d"

end NanoScript
