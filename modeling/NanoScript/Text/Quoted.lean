import NanoScript.Text.Printable

/-!
Contract: text written between double quotes.

Owns two quoted forms:
- the display form, which keeps every character that has a glyph and writes any other one by its
  code point;
- the record form, which keeps everything but the two characters with a meaning of their own and
  the controls below the space.
-/

namespace NanoScript.Text

/-- The characters of a whole number in base sixteen, in lower case. -/
def hexDigits (value : Nat) : List Char :=
  Nat.toDigits 16 value

/-- A character inside the display form. -/
def displayEscape (c : Char) : List Char :=
  if c = '\\' ∨ c = '"' then ['\\', c]
  else if c = '\n' then ['\\', 'n']
  else if c = '\r' then ['\\', 'r']
  else if c = '\t' then ['\\', 't']
  else if c.toNat = 0 then ['\\', '0']
  else if isPrintable c then [c]
  else '\\' :: 'u' :: '\x7b' :: hexDigits c.toNat ++ ['\x7d']

/-- The display form of a text. -/
def displayQuoted (text : String) : String :=
  String.ofList ('"' :: text.toList.flatMap displayEscape ++ ['"'])

/-- A character inside the record form. -/
def recordEscape (c : Char) : List Char :=
  if c = '\\' ∨ c = '"' then ['\\', c]
  else if c = '\n' then ['\\', 'n']
  else if c = '\r' then ['\\', 'r']
  else if c = '\t' then ['\\', 't']
  else if c.toNat = 8 then ['\\', 'b']
  else if c.toNat = 12 then ['\\', 'f']
  else if c.toNat < 32 then
    let figures := hexDigits c.toNat
    '\\' :: 'u' :: List.replicate (4 - figures.length) '0' ++ figures
  else [c]

/-- The record form of a text. -/
def recordQuoted (text : String) : String :=
  String.ofList ('"' :: text.toList.flatMap recordEscape ++ ['"'])

example : displayQuoted "a\x00é\u200b\"" = "\"a\\0é\\u\x7b200b\x7d\\\"\"" := by decide +kernel
example : recordQuoted "a\x00é\u200b\"" = "\"a\\u0000é\u200b\\\"\"" := by decide +kernel

end NanoScript.Text
