import NanoScript.Reading.Expression

/-!
Contract: the program that a list of tokens or a source text spells out.

Owns the grammar of statements:
- a variable declaration ends in a semicolon, and a constant has a value;
- parameters are read as expressions and must then be nothing but names;
- an expression may have a semicolon behind it;
- a function body ends at its closing brace, a program at the first end-of-input mark.
-/

namespace NanoScript

namespace Reading

/-- The names that parameters are, or the failure at the first parameter that is no name. -/
def parameterNames : List Phrase → Except SyntaxError (List String)
  | [] => .ok []
  | parameter :: rest =>
      match parameter.name? with
      | some name => (parameterNames rest).map (name :: ·)
      | none => .error (.parameterNotAName parameter.span)

/-- Read the value of a variable declaration, behind its name. -/
def initialized (behind : Span) (constant : Bool) (keyword name : Token)
    (before tokens : List Token) (shorter : tokens.length < before.length) :
    Reading Phrase (before.length + 1) := do
  let ⟨_, rest, fewer⟩ ← expect behind .equals .initializer tokens
  let ⟨value, rest, fewerStill⟩ ← expression behind rest
  let ⟨semicolon, rest, fewest⟩ ← expect behind .semicolon .declarationEnd rest
  .ok ⟨.variableDeclaration name.text (some value) constant (keyword.span.merge semicolon.span),
    rest, Nat.lt_succ_of_lt <| Nat.lt_trans fewest <| Nat.lt_trans fewerStill <|
      Nat.lt_trans fewer shorter⟩

/-- Read a variable declaration behind its keyword. -/
def variableDeclaration (behind : Span) (constant : Bool) (keyword : Token)
    (tokens : List Token) : Reading Phrase (tokens.length + 1) := do
  let ⟨name, rest, fewer⟩ ← expect behind .identifier .variableName tokens
  match rest, fewer with
  | next :: later, fewer =>
      if next.kind = .semicolon then
        let span := keyword.span.merge next.span
        if constant then
          .error (.constantWithoutValue name.text span)
        else
          .ok ⟨.variableDeclaration name.text none false span, later, by simp at fewer; omega⟩
      else
        initialized behind constant keyword name tokens (next :: later) fewer
  | [], fewer => initialized behind constant keyword name tokens [] fewer

/-- Where a list of statements ends. -/
inductive Block where
  | program
  | functionBody
deriving DecidableEq

/-- Whether a list of statements ends before a token of some kind. -/
def Block.endsBefore : Block → Token.Kind → Bool
  | _, .endOfInput => true
  | .functionBody, .closeBrace => true
  | _, _ => false

mutual

/-- Read statements up to the end of their block. -/
def statements (behind : Span) (block : Block) (tokens : List Token) :
    Reading (List Phrase) (tokens.length + 1) :=
  if block.endsBefore (nextKind tokens) then
    .ok ⟨[], tokens, Nat.lt_succ_self _⟩
  else do
    let ⟨first, rest, fewer⟩ ← statement behind tokens
    let ⟨others, rest, fewerStill⟩ ← statements behind block rest
    .ok ⟨first :: others, rest, by omega⟩
termination_by 16 * tokens.length + 11

/-- Read a declaration, or an expression with an optional semicolon behind it. -/
def statement (behind : Span) (tokens : List Token) : Reading Phrase tokens.length :=
  match tokens with
  | [] => expression behind []
  | first :: rest =>
      match first.kind with
      | .letKeyword => variableDeclaration behind false first rest
      | .constKeyword => variableDeclaration behind true first rest
      | .fnKeyword => functionDeclaration behind first rest
      | _ => do
          let ⟨value, rest, fewer⟩ ← expression behind (first :: rest)
          .ok ⟨value, dropSemicolon rest,
            Nat.lt_of_le_of_lt (length_dropSemicolon_le rest) fewer⟩
termination_by 16 * tokens.length + 10

/-- Read a function declaration behind its keyword. -/
def functionDeclaration (behind : Span) (keyword : Token) (tokens : List Token) :
    Reading Phrase (tokens.length + 1) := do
  let ⟨name, rest, fewer⟩ ← expect behind .identifier .functionName tokens
  let ⟨⟨parameters, _⟩, rest, fewerAfterName⟩ ← argumentList behind rest
  let parameters ← parameterNames parameters
  let ⟨_, rest, fewerAfterParameters⟩ ← expect behind .openBrace .bodyOpening rest
  let ⟨body, rest, fewerAfterBody⟩ ← statements behind .functionBody rest
  let ⟨close, rest, fewest⟩ ← expect behind .closeBrace .bodyClosing rest
  .ok ⟨.functionDeclaration name.text parameters body (keyword.span.merge close.span), rest,
    Nat.lt_succ_of_lt <| Nat.lt_of_lt_of_le fewest <|
      Nat.le_trans (Nat.le_of_lt_succ fewerAfterBody) <| Nat.le_of_lt <|
        Nat.lt_trans fewerAfterParameters <| Nat.lt_trans fewerAfterName fewer⟩
termination_by 16 * tokens.length + 12

end

end Reading

namespace Phrase

/-- The program that a list of tokens spells out up to its first end-of-input mark. -/
def ofTokens (tokens : List Token) : Except SyntaxError Phrase := do
  let behind := Reading.behindAll tokens
  let ⟨body, rest, _⟩ ← Reading.statements behind .program tokens
  let ⟨last, _, _⟩ ← Reading.expect behind .endOfInput .programEnd rest
  .ok (.program body ⟨0, last.span.stop⟩)

/-- The program that a source text spells out. -/
def ofSource (source : String) : Except SyntaxError Phrase :=
  match Token.scan source with
  | .ok tokens => ofTokens tokens
  | .error fault => .error (.unrecognizedCharacter fault)

end Phrase

end NanoScript
