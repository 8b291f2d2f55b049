import NanoScript.Number.Numeral
import NanoScript.Reading.Basic

/-!
Contract: the expression at the front of a list of tokens.

Owns the grammar of expressions, read from left to right with one token of foresight:
- an assignment groups to the right, binary operators of one level to the left;
- an object literal stands where an assignment or its target may stand, not as an operand;
- member accesses come before calls, so the result of a call has no members.

Every reader leaves fewer tokens than it was given; the readers for lists and chains, which may
take no token, leave no more.  The measure that decreases is the count of tokens, and on the same
tokens the level of the grammar.
-/

namespace NanoScript.Reading

mutual

/-- Read an expression. -/
def expression (behind : Span) (tokens : List Token) : Reading Phrase tokens.length := do
  let ⟨target, rest, fewer⟩ ← objectLiteral behind tokens
  if nextKind rest = .equals then do
    have fewerAfterMark : rest.tail.length < tokens.length := by
      simp only [List.length_tail]; omega
    let ⟨value, rest, fewerStill⟩ ← expression behind rest.tail
    .ok ⟨.assignment target value (target.span.merge value.span), rest, by omega⟩
  else
    .ok ⟨target, rest, fewer⟩
termination_by 16 * tokens.length + 9

/-- Read an object literal, or an expression of a higher level. -/
def objectLiteral (behind : Span) (tokens : List Token) : Reading Phrase tokens.length :=
  match tokens with
  | [] => sum behind []
  | first :: rest =>
      if first.kind = .openBrace then do
        let ⟨entries, rest, fewer⟩ ← entries behind rest
        let ⟨close, rest, fewerStill⟩ ← expect behind .closeBrace .objectClosing rest
        .ok ⟨.objectLiteral entries (first.span.merge close.span), rest, by simp; omega⟩
      else
        sum behind (first :: rest)
termination_by 16 * tokens.length + 8

/-- Read the entries of an object literal up to its closing brace. -/
def entries (behind : Span) (tokens : List Token) : Reading (List Entry) (tokens.length + 1) :=
  match nextKind tokens with
  | .closeBrace | .endOfInput => .ok ⟨[], tokens, Nat.lt_succ_self _⟩
  | _ => do
      let ⟨first, rest, fewer⟩ ← entry behind tokens
      let ⟨others, rest, fewerStill⟩ ← entries behind rest
      .ok ⟨first :: others, rest, by omega⟩
termination_by 16 * tokens.length + 11

/-- Read an entry with the comma behind it, which the last entry may leave out. -/
def entry (behind : Span) (tokens : List Token) : Reading Entry tokens.length := do
  let ⟨key, rest, fewer⟩ ← expect behind .identifier .entryKey tokens
  match nextKind rest with
  | .comma =>
      .ok ⟨.shorthand key.text key.span, rest.tail,
        by simp only [List.length_tail]; omega⟩
  | .closeBrace => .ok ⟨.shorthand key.text key.span, rest, fewer⟩
  | _ => do
      let ⟨_, rest, fewerAfterKey⟩ ← expect behind .colon .entryColon rest
      let ⟨value, rest, fewerAfterColon⟩ ← expression behind rest
      let entry := Entry.keyed key.text value (key.span.merge value.span)
      if nextKind rest = .closeBrace then
        .ok ⟨entry, rest, by omega⟩
      else do
        let ⟨_, rest, fewest⟩ ← expect behind .comma .entryEnd rest
        .ok ⟨entry, rest, by omega⟩
termination_by 16 * tokens.length + 10

/-- Read a sum: products with additive operators between them. -/
def sum (behind : Span) (tokens : List Token) : Reading Phrase tokens.length := do
  let ⟨first, rest, fewer⟩ ← product behind tokens
  let ⟨whole, rest, fewerStill⟩ ← sumTail behind first rest
  .ok ⟨whole, rest, by omega⟩
termination_by 16 * tokens.length + 7

/-- Continue a sum behind its left operand. -/
def sumTail (behind : Span) (left : Phrase) (tokens : List Token) :
    Reading Phrase (tokens.length + 1) :=
  match (nextOperator? tokens).filter Operator.isAdditive, tokens with
  | some operator, _ :: rest => do
      let ⟨right, rest, fewer⟩ ← product behind rest
      let ⟨whole, rest, fewerStill⟩ ← sumTail behind (.ofOperands left operator right) rest
      .ok ⟨whole, rest, by simp; omega⟩
  | _, tokens => .ok ⟨left, tokens, Nat.lt_succ_self _⟩
termination_by 16 * tokens.length + 6

/-- Read a product: calls with multiplicative operators between them. -/
def product (behind : Span) (tokens : List Token) : Reading Phrase tokens.length := do
  let ⟨first, rest, fewer⟩ ← call behind tokens
  let ⟨whole, rest, fewerStill⟩ ← productTail behind first rest
  .ok ⟨whole, rest, by omega⟩
termination_by 16 * tokens.length + 5

/-- Continue a product behind its left operand. -/
def productTail (behind : Span) (left : Phrase) (tokens : List Token) :
    Reading Phrase (tokens.length + 1) :=
  match (nextOperator? tokens).filter Operator.isMultiplicative, tokens with
  | some operator, _ :: rest => do
      let ⟨right, rest, fewer⟩ ← call behind rest
      let ⟨whole, rest, fewerStill⟩ ← productTail behind (.ofOperands left operator right) rest
      .ok ⟨whole, rest, by simp; omega⟩
  | _, tokens => .ok ⟨left, tokens, Nat.lt_succ_self _⟩
termination_by 16 * tokens.length + 4

/-- Read a member access with any number of argument lists behind it. -/
def call (behind : Span) (tokens : List Token) : Reading Phrase tokens.length := do
  let ⟨callee, rest, fewer⟩ ← member behind tokens
  let ⟨whole, rest, fewerStill⟩ ← callTail behind callee rest
  .ok ⟨whole, rest, by omega⟩
termination_by 16 * tokens.length + 3

/-- Continue a call behind its callee. -/
def callTail (behind : Span) (callee : Phrase) (tokens : List Token) :
    Reading Phrase (tokens.length + 1) :=
  if nextKind tokens = .openParen then do
    let ⟨⟨arguments, close⟩, rest, fewer⟩ ← argumentList behind tokens
    let ⟨whole, rest, fewerStill⟩ ←
      callTail behind (.call callee arguments (callee.span.merge close)) rest
    .ok ⟨whole, rest, by omega⟩
  else
    .ok ⟨callee, tokens, Nat.lt_succ_self _⟩
termination_by 16 * tokens.length + 13

/-- Read expressions between parentheses, and the place of the closing one. -/
def argumentList (behind : Span) (tokens : List Token) :
    Reading (List Phrase × Span) tokens.length := do
  let ⟨_, rest, fewer⟩ ← expect behind .openParen .argumentsOpening tokens
  let ⟨arguments, rest, fewerStill⟩ ← arguments behind rest
  let ⟨close, rest, fewest⟩ ← expect behind .closeParen .argumentsClosing rest
  .ok ⟨(arguments, close.span), rest, by omega⟩
termination_by 16 * tokens.length + 12

/-- Read expressions divided by commas, unless a closing parenthesis comes at once. -/
def arguments (behind : Span) (tokens : List Token) :
    Reading (List Phrase) (tokens.length + 1) :=
  if nextKind tokens = .closeParen then
    .ok ⟨[], tokens, Nat.lt_succ_self _⟩
  else do
    let ⟨first, rest, fewer⟩ ← expression behind tokens
    let ⟨others, rest, fewerStill⟩ ← argumentsTail behind rest
    .ok ⟨first :: others, rest, by omega⟩
termination_by 16 * tokens.length + 11

/-- Read further expressions, each behind a comma. -/
def argumentsTail (behind : Span) (tokens : List Token) :
    Reading (List Phrase) (tokens.length + 1) :=
  match tokens with
  | [] => .ok ⟨[], [], Nat.zero_lt_succ _⟩
  | first :: rest =>
      if first.kind = .comma then do
        let ⟨argument, rest, fewer⟩ ← expression behind rest
        let ⟨others, rest, fewerStill⟩ ← argumentsTail behind rest
        .ok ⟨argument :: others, rest, by simp; omega⟩
      else
        .ok ⟨[], first :: rest, Nat.lt_succ_self _⟩
termination_by 16 * tokens.length

/-- Read an operand with any number of member accesses behind it. -/
def member (behind : Span) (tokens : List Token) : Reading Phrase tokens.length := do
  let ⟨object, rest, fewer⟩ ← operand behind tokens
  let ⟨whole, rest, fewerStill⟩ ← memberTail behind object rest
  .ok ⟨whole, rest, by omega⟩
termination_by 16 * tokens.length + 2

/-- Continue a member access behind its object. -/
def memberTail (behind : Span) (object : Phrase) (tokens : List Token) :
    Reading Phrase (tokens.length + 1) :=
  match tokens with
  | [] => .ok ⟨object, [], Nat.zero_lt_succ _⟩
  | first :: rest =>
      match first.kind with
      | .dot => do
          let ⟨name, rest, fewer⟩ ← expect behind .identifier .memberName rest
          let ⟨whole, rest, fewerStill⟩ ←
            memberTail behind
              (.member object (.identifier name.text name.span) false
                (object.span.merge name.span)) rest
          .ok ⟨whole, rest, by simp; omega⟩
      | .openBracket => do
          let ⟨property, rest, fewer⟩ ← expression behind rest
          let ⟨close, rest, fewerAfterProperty⟩ ← expect behind .closeBracket .memberClosing rest
          let ⟨whole, rest, fewerStill⟩ ←
            memberTail behind (.member object property true (object.span.merge close.span)) rest
          .ok ⟨whole, rest, by simp; omega⟩
      | _ => .ok ⟨object, first :: rest, Nat.lt_succ_self _⟩
termination_by 16 * tokens.length

/-- Read a name, a number, or an expression in parentheses. -/
def operand (behind : Span) (tokens : List Token) : Reading Phrase tokens.length :=
  match tokens with
  | [] => .error (.unexpectedEnd .operand behind)
  | first :: rest =>
      match first.kind with
      | .identifier => .ok ⟨.identifier first.text first.span, rest, Nat.lt_succ_self _⟩
      | .number =>
          match Number.read? first.text with
          | some value => .ok ⟨.numericLiteral value first.span, rest, Nat.lt_succ_self _⟩
          | none => .error (.malformedNumber first.text first.span)
      | .openParen => do
          let ⟨value, rest, fewer⟩ ← expression behind rest
          let ⟨_, rest, fewerStill⟩ ← expect behind .closeParen .groupClosing rest
          .ok ⟨value, rest, by simp; omega⟩
      | _ => .error (.atToken first .operand)
termination_by 16 * tokens.length + 1

end

end NanoScript.Reading
