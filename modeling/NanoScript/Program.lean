import NanoScript.Host.Standard
import NanoScript.Reading.Statement

/-!
Contract: running a source text.

Owns:
- the two stages of a run, of which the second starts only if the text is a program;
- why a run fails;
- the depth to which calls nest in an ordinary run.
-/

namespace NanoScript

/-- Why a run of a source text fails. -/
inductive Failure where
  | syntaxError (error : SyntaxError)
  | fault (fault : Fault)
  | tooDeep
deriving DecidableEq

namespace Failure

/-- Why an evaluation stopped, as the failure of a run. -/
def ofStop : Stop → Failure
  | .fault cause => .fault cause
  | .tooDeep => .tooDeep

/-- The bytes that a failure points at. -/
def span : Failure → Span
  | .syntaxError error => error.span
  | .fault cause => cause.span
  | .tooDeep => .empty 0

/-- What is said about a failure. -/
def message : Failure → String
  | .syntaxError error => error.message
  | .fault cause => cause.message
  | .tooDeep => "Calls are nested too deeply"

end Failure

/-- The depth to which calls nest in an ordinary run.  Programs whose calls end stay far below
it. -/
def ordinaryDepth : Nat :=
  1000000

/-- The outcome of a computation and the state it leaves. -/
def Evaluation.outcome {α : Type} (computation : Evaluation α) (state : State) :
    Except Failure α × State :=
  match computation.run state with
  | .ok value state => (.ok value, state)
  | .error stop state => (.error (.ofStop stop), state)

/-- Run a source text in a scope.  A text that is a program gets a number of its own. -/
def run (invoker : Invoker) (source : String) (scope : ScopeId) (state : State) :
    Except Failure Value × State :=
  match Phrase.ofSource source with
  | .error error => (.error (.syntaxError error), state)
  | .ok program =>
      let (text, store) := state.store.addText
      (program.evaluate (invoker.within text) scope).outcome { state with store := store }

end NanoScript
