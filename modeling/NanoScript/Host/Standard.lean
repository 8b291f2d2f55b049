import NanoScript.Evaluation.Call

/-!
Contract: what every program finds when it starts.

Owns:
- the constants of the global scope;
- the host whose only function of effect is `print`, which shows its arguments on one line; any
  other function of this host gives the absent value.
-/

namespace NanoScript

namespace Callback

/-- Show the arguments on one line. -/
def print : Callback := fun _ arguments _ => do
  Evaluation.printLine (Value.line arguments)
  return .null

/-- Do nothing. -/
def nothing : Callback := fun _ _ _ =>
  return .null

end Callback

namespace Host

/-- The key of the function that shows its arguments. -/
def printKey : String :=
  "print"

/-- The host that only prints. -/
def standard : Host where
  callback key := if key = printKey then Callback.print else Callback.nothing

end Host

namespace Store

/-- Make a function of the host a constant of a scope. -/
def defineNative (store : Store) (id : ScopeId) (name callback : String) : Store :=
  store.define id name (.native ⟨name, callback⟩)

/-- Make a global scope: one that lies in no other and declares the constants every program may
use. -/
def addGlobal (store : Store) : ScopeId × Store :=
  let (scope, store) := store.addOutermost
  let store := store.define scope "true" (.boolean true)
  let store := store.define scope "false" (.boolean false)
  let store := store.define scope "null" .null
  (scope, store.defineNative scope "print" Host.printKey)

end Store

/-- The state in which a program starts, and its global scope. -/
def State.initial : ScopeId × State :=
  let (scope, store) := Store.empty.addGlobal
  (scope, ⟨store, #[]⟩)

end NanoScript
