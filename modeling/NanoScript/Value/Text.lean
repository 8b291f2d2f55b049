import NanoScript.Number.Text
import NanoScript.Table.Sorted
import NanoScript.Value.Basic

/-!
Contract: values written for display.

Owns the displayed form of a value and of a list of values.  The properties of an object are sorted
by their keys to be displayed, whatever their order in the object.
-/

namespace NanoScript

/-- Displayed values under their keys, between braces. -/
def Value.bracedText (properties : Table.Sorted String) : String :=
  if properties.entries = [] then "\x7b\x7d"
  else
    "\x7b" ++
      ",".intercalate (properties.entries.map fun property =>
        " " ++ property.1 ++ ": " ++ property.2) ++
      " \x7d"

mutual

/-- The displayed form of a value. -/
def Value.text : Value → String
  | .null => "null"
  | .boolean value => if value then "true" else "false"
  | .number value => value.text
  | .object ⟨properties⟩ =>
      Value.bracedText (Table.Sorted.ofList (Value.propertyTexts properties))
  | .function declared => "<fn " ++ declared.name ++ ">"
  | .native provided => "<native fn " ++ provided.name ++ ">"

/-- The displayed forms of properties under their keys. -/
def Value.propertyTexts : List (String × Value) → List (String × String)
  | [] => []
  | (key, value) :: rest => (key, value.text) :: Value.propertyTexts rest

end

/-- Values displayed on one line with blanks between them. -/
def Value.line (values : List Value) : String :=
  " ".intercalate (values.map Value.text)

end NanoScript
