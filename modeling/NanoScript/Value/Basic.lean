import NanoScript.Number.Basic
import NanoScript.Phrase.Basic
import NanoScript.Table

/-!
Contract: the values that programs compute with.

Owns:
- the forms of values and their names;
- equality of values.

Does not own: the scopes that functions refer to, and what native functions do.
-/

namespace NanoScript

/-- Which scope of a store is meant. -/
structure ScopeId where
  index : Nat
deriving DecidableEq, Inhabited

/-- Which function body is meant: that of the declaration at a place of a text.  Texts are numbered
as they are read, so that a text which is read twice makes two bodies. -/
structure BodyId where
  text : Nat
  place : Span
deriving DecidableEq

/-- A declared function, with the scope that its body sees. -/
structure Function where
  name : String
  parameters : List String
  body : List Phrase
  bodyId : BodyId
  closure : ScopeId

/-- A function of the host.  Its name is what programs see; its callback is the key under which
the host keeps what it does. -/
structure NativeFunction where
  name : String
  callback : String
deriving DecidableEq

/-- A value. -/
inductive Value where
  | null
  | boolean (value : Bool)
  | number (value : Number)
  | object (properties : Table Value)
  | function (function : Function)
  | native (function : NativeFunction)

instance : Inhabited Value :=
  ⟨.null⟩

/-- The forms of values. -/
inductive Value.Kind where
  | null
  | boolean
  | number
  | object
  | function
  | native
deriving DecidableEq

/-- How records and messages name a form. -/
def Value.Kind.name : Value.Kind → String
  | .null => "null"
  | .boolean => "boolean"
  | .number => "number"
  | .object => "object"
  | .function => "function"
  | .native => "native-function"

/-- The form of a value. -/
def Value.kind : Value → Value.Kind
  | .null => .null
  | .boolean _ => .boolean
  | .number _ => .number
  | .object _ => .object
  | .function _ => .function
  | .native _ => .native

/-- Whether two functions stem from one declaration that was evaluated in one scope: they have one
name and one body, and see one scope. -/
def Function.sameDeclaration (left right : Function) : Bool :=
  decide (left.name = right.name ∧ left.bodyId = right.bodyId ∧ left.closure = right.closure)

mutual

/-- Equality of values: numbers by value, objects by their properties, declared functions by their
declaration, and functions of the host by name. -/
def Value.equals : Value → Value → Bool
  | .null, .null => true
  | .boolean left, .boolean right => decide (left = right)
  | .number left, .number right => left.equals right
  | .object ⟨left⟩, .object ⟨right⟩ =>
      decide (left.length = right.length) && Value.propertiesAmong right left
  | .function left, .function right => left.sameDeclaration right
  | .native left, .native right => decide (left.name = right.name)
  | _, _ => false

/-- Whether each of the properties is equal to what is found under its key among others. -/
def Value.propertiesAmong (others : List (String × Value)) : List (String × Value) → Bool
  | [] => true
  | (key, value) :: rest =>
      (match Table.seek key others with
        | some other => value.equals other
        | none => false) &&
        Value.propertiesAmong others rest

end

end NanoScript
