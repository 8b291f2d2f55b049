import NanoScript.Phrase.Record
import NanoScript.Scope.Basic

/-!
Contract: values described as structured records.

Owns the description: the form of a value under `type`, and what it consists of.  A declared
function is described with its body and with the depth of the scope that it sees.
-/

namespace NanoScript

/-- The record of a form with what the value consists of. -/
def Record.ofValue (kind : Value.Kind) (parts : List (String × Record)) : Record :=
  .ofFields (("type", .text kind.name) :: parts)

mutual

/-- The record of a value of which the functions refer to scopes of a store. -/
def Value.record (store : Store) : Value → Record
  | .null => .ofValue .null []
  | .boolean value => .ofValue .boolean [("value", .boolean value)]
  | .number value => .ofValue .number [("value", .ofNumber value)]
  | .object ⟨properties⟩ =>
      .ofValue .object [("properties", .ofFields (Value.propertyRecords store properties))]
  | .function declared =>
      .ofValue .function
        [("name", .text declared.name), ("parameters", .list (declared.parameters.map .text)),
          ("body", .list (Phrase.records declared.body)),
          ("scope_depth", .natural (store.depth declared.closure))]
  | .native provided => .ofValue .native [("name", .text provided.name)]

/-- The records of properties under their keys. -/
def Value.propertyRecords (store : Store) : List (String × Value) → List (String × Record)
  | [] => []
  | (key, value) :: rest => (key, value.record store) :: Value.propertyRecords store rest

end

end NanoScript
