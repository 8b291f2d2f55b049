import Mathlib.Logic.Relation
import NanoScript.Proofs.Reading.Outcome

/-!
Contract: reading, one look and one token at a time.

Owns:
- the procedures that reading consists of, the loops among them, and the body of each;
- the runs of a body, step by step, which are given no reason to end;
- which procedures a procedure enters, and when it asks for a token behind the last one.

Does not own: that runs end, and that they end as the readers do.

A body looks at most at the next token.  A token that has been looked at is taken without asking,
so that a body which takes one that is not there does not run on: that no run is stuck there has
to be shown.
-/

namespace NanoScript.Reading

/-! ## Procedures -/

/-- What is read again and again. -/
inductive Loop where
  | statements (block : Block)
  | entries
  | arguments
  | additions
  | multiplications
  | members
  | calls
deriving DecidableEq

/-- The procedures of reading, with what they are handed besides the tokens: what the tokens just
taken stand for.  A loop is entered anew for each of its rounds. -/
inductive Procedure where
  | program
  | statements (block : Block)
  | statement
  | variableDeclaration (constant : Bool) (keyword : Token)
  | functionDeclaration (keyword : Token)
  | expression
  | objectLiteral
  | entries
  | entry
  | sum
  | sumTail (left : Phrase)
  | product
  | productTail (left : Phrase)
  | call
  | chainedCall (callee : Phrase)
  | argumentList
  | argumentsTail
  | member
  | memberTail (object : Phrase)
  | operand

namespace Procedure

/-- What a procedure yields. -/
abbrev Result : Procedure → Type
  | .statements _ | .argumentsTail => List Phrase
  | .entries => List Entry
  | .entry => Entry
  | .argumentList => List Phrase × Span
  | _ => Phrase

/-- The loop that a procedure makes a round of. -/
def loop? : Procedure → Option Loop
  | .statements block => some (.statements block)
  | .entries => some .entries
  | .argumentsTail => some .arguments
  | .sumTail _ => some .additions
  | .productTail _ => some .multiplications
  | .memberTail _ => some .members
  | .chainedCall _ => some .calls
  | _ => none

/-- Whether a procedure may succeed without a token: a loop that is over before its first round.
A call is entered at the parenthesis of its arguments only. -/
def mayTakeNone : Procedure → Bool
  | .chainedCall _ => false
  | procedure => procedure.loop?.isSome

end Procedure

/-! ## Bodies -/

/-- What a procedure does before the tokens that remain. -/
inductive Script (α : Type) where
  | yield (value : α)
  | fail (error : SyntaxError)
  /-- Look at the next token, if there is one. -/
  | look (next : Option Token → Script α)
  /-- Take the token that was looked at. -/
  | advance (next : Token → Script α)
  /-- Ask for a token. -/
  | request (expected : Expectation) (next : Token → Script α)
  /-- Go on with what a procedure yields. -/
  | enter (procedure : Procedure) (next : procedure.Result → Script α)

namespace Script

variable {α : Type}

/-- Look at the kind of the next token. -/
def lookKind (next : Token.Kind → Script α) : Script α :=
  .look fun seen => next (nextKind seen.toList)

/-- Look at the operator that comes next, if one does. -/
def lookOperator (next : Option Operator → Script α) : Script α :=
  .look fun seen => next (nextOperator? seen.toList)

/-- Ask for a token of one kind. -/
def expectKind (kind : Token.Kind) (expected : Expectation) (next : Token → Script α) : Script α :=
  .request expected fun token =>
    if token.kind = kind then next token else .fail (.atToken token expected)

end Script

/-- The bodies of the procedures. -/
def Procedure.body : (procedure : Procedure) → Script procedure.Result
  | .program =>
      .enter (.statements .program) fun body =>
      .expectKind .endOfInput .programEnd fun last =>
      .yield (.program body ⟨0, last.span.stop⟩)
  | .statements block =>
      .lookKind fun kind =>
        if block.endsBefore kind then .yield []
        else
          .enter .statement fun first =>
          .enter (.statements block) fun others =>
          .yield (first :: others)
  | .statement =>
      .lookKind fun
        | .letKeyword => .advance fun keyword => .enter (.variableDeclaration false keyword) .yield
        | .constKeyword => .advance fun keyword => .enter (.variableDeclaration true keyword) .yield
        | .fnKeyword => .advance fun keyword => .enter (.functionDeclaration keyword) .yield
        | _ =>
            .enter .expression fun value =>
            .lookKind fun kind =>
              if kind = .semicolon then .advance fun _ => .yield value else .yield value
  | .variableDeclaration constant keyword =>
      .expectKind .identifier .variableName fun name =>
      .lookKind fun kind =>
        if kind = .semicolon then
          .advance fun semicolon =>
            let span := keyword.span.merge semicolon.span
            if constant then .fail (.constantWithoutValue name.text span)
            else .yield (.variableDeclaration name.text none false span)
        else
          .expectKind .equals .initializer fun _ =>
          .enter .expression fun value =>
          .expectKind .semicolon .declarationEnd fun semicolon =>
          .yield (.variableDeclaration name.text (some value) constant
            (keyword.span.merge semicolon.span))
  | .functionDeclaration keyword =>
      .expectKind .identifier .functionName fun name =>
      .enter .argumentList fun list =>
        match parameterNames list.1 with
        | .error error => .fail error
        | .ok parameters =>
            .expectKind .openBrace .bodyOpening fun _ =>
            .enter (.statements .functionBody) fun body =>
            .expectKind .closeBrace .bodyClosing fun close =>
            .yield (.functionDeclaration name.text parameters body (keyword.span.merge close.span))
  | .expression =>
      .enter .objectLiteral fun target =>
      .lookKind fun kind =>
        if kind = .equals then
          .advance fun _ =>
          .enter .expression fun value =>
          .yield (.assignment target value (target.span.merge value.span))
        else .yield target
  | .objectLiteral =>
      .lookKind fun kind =>
        if kind = .openBrace then
          .advance fun opening =>
          .enter .entries fun entries =>
          .expectKind .closeBrace .objectClosing fun close =>
          .yield (.objectLiteral entries (opening.span.merge close.span))
        else .enter .sum .yield
  | .entries =>
      .lookKind fun kind =>
        if endsEntries kind then .yield []
        else
          .enter .entry fun first =>
          .enter .entries fun others =>
          .yield (first :: others)
  | .entry =>
      .expectKind .identifier .entryKey fun key =>
      .lookKind fun kind =>
        if kind = .comma then .advance fun _ => .yield (.shorthand key.text key.span)
        else if kind = .closeBrace then .yield (.shorthand key.text key.span)
        else
          .expectKind .colon .entryColon fun _ =>
          .enter .expression fun value =>
            let entry := Entry.keyed key.text value (key.span.merge value.span)
            .lookKind fun kind =>
              if kind = .closeBrace then .yield entry
              else .expectKind .comma .entryEnd fun _ => .yield entry
  | .sum =>
      .enter .product fun first =>
      .enter (.sumTail first) .yield
  | .sumTail left =>
      .lookOperator fun operator =>
        match operator.filter Operator.isAdditive with
        | some operator =>
            .advance fun _ =>
            .enter .product fun right =>
            .enter (.sumTail (.ofOperands left operator right)) .yield
        | none => .yield left
  | .product =>
      .enter .call fun first =>
      .enter (.productTail first) .yield
  | .productTail left =>
      .lookOperator fun operator =>
        match operator.filter Operator.isMultiplicative with
        | some operator =>
            .advance fun _ =>
            .enter .call fun right =>
            .enter (.productTail (.ofOperands left operator right)) .yield
        | none => .yield left
  | .call =>
      .enter .member fun callee =>
      .lookKind fun kind =>
        if kind = .openParen then .enter (.chainedCall callee) .yield else .yield callee
  | .chainedCall callee =>
      .enter .argumentList fun list =>
        let call := Phrase.call callee list.1 (callee.span.merge list.2)
        .lookKind fun kind =>
          if kind = .openParen then .enter (.chainedCall call) .yield else .yield call
  | .argumentList =>
      .expectKind .openParen .argumentsOpening fun _ =>
      .lookKind fun kind =>
        if kind = .closeParen then
          .expectKind .closeParen .argumentsClosing fun close => .yield ([], close.span)
        else
          .enter .expression fun first =>
          .enter .argumentsTail fun others =>
          .expectKind .closeParen .argumentsClosing fun close =>
          .yield (first :: others, close.span)
  | .argumentsTail =>
      .lookKind fun kind =>
        if kind = .comma then
          .advance fun _ =>
          .enter .expression fun argument =>
          .enter .argumentsTail fun others =>
          .yield (argument :: others)
        else .yield []
  | .member =>
      .enter .operand fun object =>
      .enter (.memberTail object) .yield
  | .memberTail object =>
      .lookKind fun kind =>
        if kind = .dot then
          .advance fun _ =>
          .expectKind .identifier .memberName fun name =>
          .enter (.memberTail (.member object (.identifier name.text name.span) false
            (object.span.merge name.span))) .yield
        else if kind = .openBracket then
          .advance fun _ =>
          .enter .expression fun property =>
          .expectKind .closeBracket .memberClosing fun close =>
          .enter (.memberTail (.member object property true (object.span.merge close.span))) .yield
        else .yield object
  | .operand =>
      .request .operand fun token =>
        if token.kind = .identifier then .yield (.identifier token.text token.span)
        else if token.kind = .number then
          match Number.read? token.text with
          | some value => .yield (.numericLiteral value token.span)
          | none => .fail (.malformedNumber token.text token.span)
        else if token.kind = .openParen then
          .enter .expression fun value =>
          .expectKind .closeParen .groupClosing fun _ =>
          .yield value
        else .fail (.atToken token .operand)

/-! ## Runs -/

/-- A script runs on the tokens that remain and comes to a result.  Whatever is asked for behind
the last token, the answer is an end of input at the place behind all tokens. -/
inductive Runs (behind : Span) : {α : Type} → Script α → List Token → Outcome α → Prop
  | yield {α : Type} {value : α} {tokens : List Token} :
      Runs behind (.yield value) tokens (.ok (value, tokens))
  | fail {α : Type} {error : SyntaxError} {tokens : List Token} :
      Runs behind (.fail error : Script α) tokens (.error error)
  | look {α : Type} {next : Option Token → Script α} {tokens : List Token} {result : Outcome α}
      (later : Runs behind (next tokens.head?) tokens result) :
      Runs behind (.look next) tokens result
  | advance {α : Type} {next : Token → Script α} {token : Token} {rest : List Token}
      {result : Outcome α} (later : Runs behind (next token) rest result) :
      Runs behind (.advance next) (token :: rest) result
  | request {α : Type} {expected : Expectation} {next : Token → Script α} {token : Token}
      {rest : List Token} {result : Outcome α} (later : Runs behind (next token) rest result) :
      Runs behind (.request expected next) (token :: rest) result
  | requestBehind {α : Type} {expected : Expectation} {next : Token → Script α} :
      Runs behind (.request expected next) [] (.error (.unexpectedEnd expected behind))
  | enter {α : Type} {procedure : Procedure} {next : procedure.Result → Script α}
      {tokens rest : List Token} {value : procedure.Result} {result : Outcome α}
      (first : Runs behind procedure.body tokens (.ok (value, rest)))
      (later : Runs behind (next value) rest result) :
      Runs behind (.enter procedure next) tokens result
  | enterFails {α : Type} {procedure : Procedure} {next : procedure.Result → Script α}
      {tokens : List Token} {error : SyntaxError}
      (fails : Runs behind procedure.body tokens (.error error)) :
      Runs behind (.enter procedure next) tokens (.error error)

/-- One step of a script on the tokens that remain, with all that an entered procedure does taken
together. -/
inductive Moves (behind : Span) {α : Type} :
    Script α × List Token → Script α × List Token → Prop
  | look {next : Option Token → Script α} {tokens : List Token} :
      Moves behind (.look next, tokens) (next tokens.head?, tokens)
  | advance {next : Token → Script α} {token : Token} {rest : List Token} :
      Moves behind (.advance next, token :: rest) (next token, rest)
  | request {expected : Expectation} {next : Token → Script α} {token : Token}
      {rest : List Token} :
      Moves behind (.request expected next, token :: rest) (next token, rest)
  | enter {procedure : Procedure} {next : procedure.Result → Script α} {tokens rest : List Token}
      {value : procedure.Result} (first : Runs behind procedure.body tokens (.ok (value, rest))) :
      Moves behind (.enter procedure next, tokens) (next value, rest)

/-- A procedure comes to enter another one, or itself once more, on the tokens that remain then. -/
def Enters (behind : Span) (outer inner : Procedure × List Token) : Prop :=
  ∃ next, Relation.ReflTransGen (Moves behind) (outer.1.body, outer.2)
    (.enter inner.1 next, inner.2)

/-- A procedure comes to ask for a token when none remains. -/
def AsksBehind (behind : Span) (state : Procedure × List Token) (expected : Expectation) : Prop :=
  ∃ next, Relation.ReflTransGen (Moves behind) (state.1.body, state.2)
    (.request expected next, [])

/-- Somewhere in the reading of a program a token behind the last one is asked for. -/
def RunsDry (tokens : List Token) (expected : Expectation) : Prop :=
  ∃ state, Relation.ReflTransGen (Enters (behindAll tokens)) (.program, tokens) state ∧
    AsksBehind (behindAll tokens) state expected

end NanoScript.Reading
