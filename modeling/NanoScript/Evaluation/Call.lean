import NanoScript.Evaluation.Phrase

/-!
Contract: running functions.

Owns:
- the call of a declared function: a fresh scope inside the scope the function was declared in,
  with the parameters bound to the arguments;
- hosts, which say what the functions of the host do;
- the invoker that allows calls to nest up to a given depth.
-/

namespace NanoScript

/-- Run a declared function.  A wrong number of arguments is found before a scope is made, a
repeated parameter before the body runs; both are reported at the place of the call. -/
def Function.run (invoker : Invoker) (function : Function) (arguments : List Value)
    (span : Span) : Evaluation Value :=
  if arguments.length ≠ function.parameters.length then
    Evaluation.fail
      (.arityMismatch function.name function.parameters.length arguments.length span)
  else do
    let scope ← Evaluation.addEnclosed function.closure
    Evaluation.declareAll scope span (function.parameters.zip arguments)
    Phrase.evaluateBlock (invoker.within function.bodyId.text) scope .null function.body

/-- What a function of the host does with its arguments in the scope of the call. -/
abbrev Callback : Type :=
  Invoker → List Value → ScopeId → Evaluation Value

/-- What the functions of a host do, by the keys of their callbacks. -/
structure Host where
  callback : String → Callback

/-- The invoker under which calls nest up to a depth. -/
def Invoker.upTo (host : Host) : (depth : Nat) → Invoker
  | 0 =>
      { text := 0
        function := fun _ _ _ => throw .tooDeep
        native := fun _ _ _ => throw .tooDeep }
  | depth + 1 =>
      { text := 0
        function := fun function arguments span =>
          function.run (Invoker.upTo host depth) arguments span
        native := fun function arguments scope =>
          host.callback function.callback (Invoker.upTo host depth) arguments scope }

end NanoScript
