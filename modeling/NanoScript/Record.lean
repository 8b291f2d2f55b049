import NanoScript.Number.Text
import NanoScript.Table.Sorted
import NanoScript.Text.Quoted

/-!
Contract: structured records, the nested data that programs and values are described by.

Owns:
- the data itself, with the fields of a record in ascending order of their names;
- its compact written form, in which a number keeps a fraction or a power of ten and what has
  no digits is written as the absent value.
-/

namespace NanoScript

/-- Nested data. -/
inductive Record where
  | absent
  | boolean (value : Bool)
  | natural (value : Nat)
  | number (value : Number)
  | text (value : String)
  | list (items : List Record)
  | fields (entries : Table.Sorted Record)

namespace Record

/-- A number as data; infinities and what is not a number have no digits and are left out. -/
def ofNumber (value : Number) : Record :=
  if value.isFinite then .number value else .absent

/-- A record with the given fields. -/
def ofFields (entries : List (String × Record)) : Record :=
  .fields (Table.Sorted.ofList entries)

mutual

/-- The written form without any blank between its parts. -/
def compact : Record → String
  | .absent => "null"
  | .boolean value => if value then "true" else "false"
  | .natural value => toString value
  | .number value => value.recordText
  | .text value => Text.recordQuoted value
  | .list items => "[" ++ compactItems items ++ "]"
  | .fields ⟨entries⟩ => "\x7b" ++ compactEntries entries ++ "\x7d"

/-- Items divided by commas. -/
def compactItems : List Record → String
  | [] => ""
  | [item] => compact item
  | item :: next :: rest => compact item ++ "," ++ compactItems (next :: rest)

/-- Named items divided by commas. -/
def compactEntries : List (String × Record) → String
  | [] => ""
  | [(name, item)] => Text.recordQuoted name ++ ":" ++ compact item
  | (name, item) :: next :: rest =>
      Text.recordQuoted name ++ ":" ++ compact item ++ "," ++ compactEntries (next :: rest)

end

end Record

end NanoScript
