import NanoScript.Span

/-!
Contract: tokens, the words and marks that a source text consists of.

Owns:
- the kinds of tokens and how each is named in messages;
- the characters that words, numerals and layout are made of.

Does not own: cutting a text into tokens.
-/

namespace NanoScript

/-- What a token is. -/
inductive Token.Kind where
  | number
  | identifier
  | letKeyword
  | constKeyword
  | fnKeyword
  | equals
  | openParen
  | closeParen
  | openBrace
  | closeBrace
  | openBracket
  | closeBracket
  | colon
  | semicolon
  | comma
  | dot
  | binaryOperator
  | endOfInput
deriving DecidableEq

namespace Token.Kind

/-- The words that declare names and cannot be names themselves. -/
def isKeyword : Kind → Bool
  | .letKeyword | .constKeyword | .fnKeyword => true
  | _ => false

/-- How messages name a kind. -/
def description : Kind → String
  | .number => "number"
  | .identifier => "identifier"
  | .letKeyword => "'let'"
  | .constKeyword => "'const'"
  | .fnKeyword => "'fn'"
  | .equals => "'='"
  | .openParen => "'('"
  | .closeParen => "')'"
  | .openBrace => "'\x7b'"
  | .closeBrace => "'\x7d'"
  | .openBracket => "'['"
  | .closeBracket => "']'"
  | .colon => "':'"
  | .semicolon => "';'"
  | .comma => "','"
  | .dot => "'.'"
  | .binaryOperator => "binary operator"
  | .endOfInput => "end of input"

end Token.Kind

/-- A token with its text and the place of that text in the source. -/
structure Token where
  kind : Token.Kind
  text : String
  span : Span
deriving DecidableEq

namespace Token

/-- The mark behind the last token of a source text that takes `size` bytes. -/
def endOfInput (size : Nat) : Token :=
  ⟨.endOfInput, "", Span.empty size⟩

/-- How messages name a token. -/
def description (token : Token) : String :=
  match token.kind with
  | .endOfInput => "end of input"
  | _ => "'" ++ token.text ++ "'"

/-! ## Characters -/

/-- The letters that words are made of: those of the basic Latin alphabet. -/
def isLetter (c : Char) : Bool :=
  ('a' ≤ c && c ≤ 'z') || ('A' ≤ c && c ≤ 'Z')

/-- The digits that numerals are made of. -/
def isDigit (c : Char) : Bool :=
  '0' ≤ c && c ≤ '9'

/-- The blanks that may stand between tokens. -/
def isLayout (c : Char) : Bool :=
  c = ' ' || c = '\t' || c = '\n' || c = '\r'

/-- The kind of a token that is one mark long. -/
def Kind.ofMark? (c : Char) : Option Kind :=
  match c with
  | '=' => some .equals
  | '(' => some .openParen
  | ')' => some .closeParen
  | '\x7b' => some .openBrace
  | '\x7d' => some .closeBrace
  | '[' => some .openBracket
  | ']' => some .closeBracket
  | ':' => some .colon
  | ';' => some .semicolon
  | ',' => some .comma
  | '.' => some .dot
  | '+' | '-' | '*' | '/' | '%' => some .binaryOperator
  | _ => none

/-- The kind of a token that is a word. -/
def Kind.ofWord (word : String) : Kind :=
  match word with
  | "let" => .letKeyword
  | "const" => .constKeyword
  | "fn" => .fnKeyword
  | _ => .identifier

end Token

end NanoScript
