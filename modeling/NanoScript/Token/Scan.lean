import NanoScript.Text.Bytes
import NanoScript.Token.Basic

/-!
Contract: the tokens of a source text.

Owns:
- the extent of a token: words and numerals reach as far as they can, and a fraction mark belongs
  to a numeral only if a digit follows it;
- the scan of a whole text, which ends in the end-of-input mark or at the first character that
  starts no token and is no layout.

Offsets are counted in bytes.
-/

namespace NanoScript

/-- What is wrong with a piece of text that is no token: the character it starts with, or that there
is none. -/
inductive Token.Unrecognized.Cause where
  | character (character : Char)
  | invalidToken
deriving DecidableEq

/-- What is wrong with a piece of text that is no token. -/
def Token.Unrecognized.Cause.ofPiece : List Char → Cause
  | [] => .invalidToken
  | first :: _ => .character first

/-- A piece of text that is no token, and the bytes it takes. -/
structure Token.Unrecognized where
  cause : Token.Unrecognized.Cause
  span : Span
deriving DecidableEq

/-- What is said about a piece of text that is no token. -/
def Token.Unrecognized.message (fault : Token.Unrecognized) : String :=
  match fault.cause with
  | .character character =>
      "Unrecognised character found in source: '" ++ character.toString ++ "'"
  | .invalidToken => "Invalid Token"

namespace Token

/-- The characters that continue a numeral behind its first digit. -/
def numeralTail (rest : List Char) : List Char :=
  let whole := rest.takeWhile isDigit
  match rest.dropWhile isDigit with
  | '.' :: figure :: later =>
      if isDigit figure then whole ++ '.' :: figure :: later.takeWhile isDigit else whole
  | _ => whole

/-- The kind of the token that starts with a character, and the further characters that belong to
it. -/
def lexeme? (first : Char) (rest : List Char) : Option (Kind × List Char) :=
  if isLetter first then
    let tail := rest.takeWhile isLetter
    some (.ofWord (String.ofList (first :: tail)), tail)
  else if isDigit first then
    some (.number, numeralTail rest)
  else
    (Kind.ofMark? first).map fun kind => (kind, [])

/-- The tokens of the part of a source text that starts at a byte offset. -/
def scanFrom (offset : Nat) (text : List Char) : Except Unrecognized (List Token) :=
  match text with
  | [] => .ok [endOfInput offset]
  | first :: rest =>
      if isLayout first then
        scanFrom (offset + first.utf8Size) rest
      else
        match lexeme? first rest with
        | none => .error ⟨.ofPiece [first], offset, offset + first.utf8Size⟩
        | some (kind, tail) =>
            let stop := offset + Text.byteLength (first :: tail)
            (scanFrom stop (rest.drop tail.length)).map fun tokens =>
              ⟨kind, String.ofList (first :: tail), offset, stop⟩ :: tokens
termination_by text.length
decreasing_by
  all_goals simp only [List.length_drop, List.length_cons]; omega

/-- The tokens of a source text, the end-of-input mark last. -/
def scan (source : String) : Except Unrecognized (List Token) :=
  scanFrom 0 source.toList

end Token

end NanoScript
