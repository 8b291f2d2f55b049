/-!
Contract: the blank characters of the Unicode Standard, and text without them at its ends.

Owns the property `White_Space`; it is wider than the blanks that may stand between tokens.
-/

namespace NanoScript.Text

/-- Whether a character has the property `White_Space`. -/
def isBlank (c : Char) : Bool :=
  let code := c.toNat
  (9 ≤ code && code ≤ 13) || code = 0x20 || code = 0x85 || code = 0xA0 || code = 0x1680 ||
    (0x2000 ≤ code && code ≤ 0x200A) || code = 0x2028 || code = 0x2029 || code = 0x202F ||
    code = 0x205F || code = 0x3000

/-- A text without the blanks before its first and after its last other character. -/
def trimmed (text : String) : String :=
  let fromFirst := text.toList.dropWhile isBlank
  String.ofList (fromFirst.reverse.dropWhile isBlank).reverse

end NanoScript.Text
