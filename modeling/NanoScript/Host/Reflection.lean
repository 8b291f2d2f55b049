import NanoScript.Host.Standard
import NanoScript.Number.Rounding

/-!
Contract: a host through which programs look at values and scopes and call functions.

Owns:
- `same`, equality of two values;
- `depth` and `names`, the depth of the scope of the call and how many names stand for something
  in it;
- `first`, the first argument, and `fail`, which fails with its arguments as the message;
- `leak`, which declares a variable in the scope of the call;
- `apply`, which calls its first argument on the others;
- `print`, as in the standard host.

What these functions report has no place in a source text, so their failures point at fixed ranges.
-/

namespace NanoScript

namespace Number

/-- The number nearest to a whole number. -/
def ofNat (value : Nat) : Number :=
  ofRank false (nearestRank value 1)

end Number

namespace Callback

/-- The place of a failure that has none in the source text. -/
def nowhere : Span :=
  .empty 0

/-- Whether two values are equal. -/
def same : Callback := fun _ arguments _ =>
  match arguments with
  | [left, right] => return .boolean (left.equals right)
  | _ => Evaluation.fail (.native "same takes two values" nowhere)

/-- The depth of the scope of the call. -/
def depth : Callback := fun _ _ scope => do
  return .number (.ofNat ((← Evaluation.store).depth scope))

/-- How many names stand for something in the scope of the call. -/
def names : Callback := fun _ _ scope => do
  return .number (.ofNat ((← Evaluation.store).visibleNames scope).length)

/-- Fail with the arguments as the message. -/
def fail : Callback := fun _ arguments _ =>
  Evaluation.fail (.native (Value.line arguments) nowhere)

/-- The first argument. -/
def first : Callback := fun _ arguments _ =>
  return arguments.head?.getD .null

/-- Declare a variable with the last argument in the scope of the call. -/
def leak : Callback := fun _ arguments scope =>
  Evaluation.declare scope "leaked" (arguments.getLast?.getD .null) false nowhere

/-- Call the first argument on the others. -/
def apply : Callback := fun invoker arguments scope =>
  match arguments with
  | [] => Evaluation.fail (.native "apply takes a function" nowhere)
  | callee :: rest => Evaluation.callValue invoker scope callee rest ⟨3, 4⟩ ⟨1, 2⟩

end Callback

namespace Host

/-- The functions that the global scope has under this host besides the standard ones. -/
def reflectionNames : List String :=
  ["same", "depth", "names", "fail", "first", "leak", "apply"]

/-- The host through which programs look at values and scopes. -/
def reflection : Host where
  callback key :=
    match key with
    | "same" => Callback.same
    | "depth" => Callback.depth
    | "names" => Callback.names
    | "fail" => Callback.fail
    | "first" => Callback.first
    | "leak" => Callback.leak
    | "apply" => Callback.apply
    | _ => standard.callback key

end Host

namespace Store

/-- Declare the functions of the reflective host in a scope, each under its own name. -/
def defineReflection (store : Store) (id : ScopeId) : Store :=
  Host.reflectionNames.foldl (fun store name => store.defineNative id name name) store

end Store

end NanoScript
