import NanoScript.Proofs.Grammar.Follow
import NanoScript.Proofs.Reading.Procedure

/-!
Contract: the procedures do what the readers do.

Owns:
- the reader that each procedure stands for;
- one equation for each procedure: with the readers in the place of the procedures it enters, its
  body comes to what its reader yields;
- from these, that a run of a body has no other result.

No induction on the tokens is needed: that runs have an end is used here, not shown.
-/

namespace NanoScript.Reading

/-- What the reader of a procedure yields. -/
def Procedure.read (behind : Span) :
    (procedure : Procedure) → List Token → Outcome procedure.Result
  | .program, tokens =>
      (outcome (Reading.statements behind .program tokens)).andThen fun body rest =>
        (outcome (expect behind .endOfInput .programEnd rest)).andThen fun last rest =>
          .ok (.program body ⟨0, last.span.stop⟩, rest)
  | .statements block, tokens => outcome (Reading.statements behind block tokens)
  | .statement, tokens => outcome (Reading.statement behind tokens)
  | .variableDeclaration constant keyword, tokens =>
      outcome (Reading.variableDeclaration behind constant keyword tokens)
  | .functionDeclaration keyword, tokens =>
      outcome (Reading.functionDeclaration behind keyword tokens)
  | .expression, tokens => outcome (Reading.expression behind tokens)
  | .objectLiteral, tokens => outcome (Reading.objectLiteral behind tokens)
  | .entries, tokens => outcome (Reading.entries behind tokens)
  | .entry, tokens => outcome (Reading.entry behind tokens)
  | .sum, tokens => outcome (Reading.sum behind tokens)
  | .sumTail left, tokens => outcome (Reading.sumTail behind left tokens)
  | .product, tokens => outcome (Reading.product behind tokens)
  | .productTail left, tokens => outcome (Reading.productTail behind left tokens)
  | .call, tokens => outcome (Reading.call behind tokens)
  | .chainedCall callee, tokens =>
      (outcome (Reading.argumentList behind tokens)).andThen fun list rest =>
        outcome (callTail behind (.call callee list.1 (callee.span.merge list.2)) rest)
  | .argumentList, tokens => outcome (Reading.argumentList behind tokens)
  | .argumentsTail, tokens => outcome (Reading.argumentsTail behind tokens)
  | .member, tokens => outcome (Reading.member behind tokens)
  | .memberTail object, tokens => outcome (Reading.memberTail behind object tokens)
  | .operand, tokens => outcome (Reading.operand behind tokens)

/-- What a script comes to if the procedures it enters yield what their readers do.  Should it
advance where no token remains, a mark stands in for one; no run depends on that. -/
def Script.interpret (behind : Span) {α : Type} : Script α → List Token → Outcome α
  | .yield value, tokens => .ok (value, tokens)
  | .fail error, _ => .error error
  | .look next, tokens => (next tokens.head?).interpret behind tokens
  | .advance next, tokens =>
      (next (tokens.headD (.endOfInput 0))).interpret behind tokens.tail
  | .request expected _, [] => .error (.unexpectedEnd expected behind)
  | .request _ next, token :: rest => (next token).interpret behind rest
  | .enter procedure next, tokens =>
      (procedure.read behind tokens).andThen fun value rest => (next value).interpret behind rest

namespace Script

variable {α : Type} (behind : Span)

@[simp] theorem interpret_ite {condition : Prop} [Decidable condition] (left right : Script α)
    (tokens : List Token) :
    (if condition then left else right).interpret behind tokens =
      if condition then left.interpret behind tokens else right.interpret behind tokens := by
  split <;> rfl

@[simp] theorem interpret_lookKind (next : Token.Kind → Script α) (tokens : List Token) :
    (lookKind next).interpret behind tokens = (next (nextKind tokens)).interpret behind tokens := by
  cases tokens <;> rfl

@[simp] theorem interpret_lookOperator (next : Option Operator → Script α) (tokens : List Token) :
    (lookOperator next).interpret behind tokens =
      (next (nextOperator? tokens)).interpret behind tokens := by
  cases tokens <;> rfl

@[simp] theorem interpret_expectKind (kind : Token.Kind) (expected : Expectation)
    (next : Token → Script α) (tokens : List Token) :
    (expectKind kind expected next).interpret behind tokens =
      (outcome (expect behind kind expected tokens)).andThen fun token rest =>
        (next token).interpret behind rest := by
  cases tokens with
  | nil => rfl
  | cons token rest =>
      rw [outcome_expect_cons, expectKind, interpret, interpret_ite]
      split <;> rfl

end Script

/-! ## One equation for each procedure -/

theorem dropSemicolon_eq (tokens : List Token) :
    dropSemicolon tokens = if nextKind tokens = .semicolon then tokens.tail else tokens := by
  cases tokens <;> rfl

/-- Behind an expression that is a statement, the semicolon is dropped if there is one. -/
theorem interpret_semicolon (behind : Span) (value : Phrase) (tokens : List Token) :
    Script.interpret behind
        (.lookKind fun kind =>
          if kind = .semicolon then .advance fun _ => .yield value else .yield value) tokens =
      .ok (value, dropSemicolon tokens) := by
  rw [Script.interpret_lookKind, Script.interpret_ite, dropSemicolon_eq]
  split <;> rfl

theorem interpret_statement (behind : Span) (tokens : List Token) :
    Procedure.statement.body.interpret behind tokens =
      Procedure.statement.read behind tokens := by
  cases tokens with
  | nil =>
      rw [Procedure.read, outcome_statement_nil, Procedure.body, Script.interpret_lookKind]
      change (outcome (expression behind [])).andThen _ = outcome (expression behind [])
      rw [outcome_expression_nil, Outcome.andThen_error]
  | cons first rest =>
      rw [Procedure.read, outcome_statement_cons, Procedure.body, Script.interpret_lookKind,
        nextKind_cons]
      cases first.kind <;>
        first
        | exact Outcome.andThen_ok_self _
        | exact Outcome.andThen_congr (interpret_semicolon behind)

theorem interpret_variableDeclaration (behind : Span) (constant : Bool) (keyword : Token)
    (tokens : List Token) :
    (Procedure.variableDeclaration constant keyword).body.interpret behind tokens =
      (Procedure.variableDeclaration constant keyword).read behind tokens := by
  rw [Procedure.read, outcome_variableDeclaration]
  simp only [Procedure.body, Script.interpret_expectKind, Script.interpret_lookKind,
    Script.interpret_ite]
  refine Outcome.andThen_congr fun name rest => ?_
  split
  · next atSemicolon =>
      cases rest with
      | nil => cases atSemicolon
      | cons semicolon later =>
          rw [outcome_expect_of_kind _ _ atSemicolon]
          cases constant <;> rfl
  · simp [Script.interpret, Procedure.read]

theorem interpret_functionDeclaration (behind : Span) (keyword : Token) (tokens : List Token) :
    (Procedure.functionDeclaration keyword).body.interpret behind tokens =
      (Procedure.functionDeclaration keyword).read behind tokens := by
  rw [Procedure.read, outcome_functionDeclaration]
  simp only [Procedure.body, Script.interpret_expectKind, Script.interpret]
  refine Outcome.andThen_congr fun name rest => ?_
  refine Outcome.andThen_congr fun list rest => ?_
  cases parameterNames list.1 with
  | error error => rfl
  | ok parameters => simp [Script.interpret, Procedure.read]

theorem interpret_objectLiteral (behind : Span) (tokens : List Token) :
    Procedure.objectLiteral.body.interpret behind tokens =
      Procedure.objectLiteral.read behind tokens := by
  simp only [Procedure.body, Script.interpret_lookKind, Script.interpret_ite]
  cases tokens with
  | nil =>
      rw [Procedure.read, outcome_objectLiteral_nil]
      exact Outcome.andThen_ok_self _
  | cons first rest =>
      rw [Procedure.read, outcome_objectLiteral_cons, nextKind_cons]
      simp [Procedure.read, Script.interpret]

theorem interpret_call (behind : Span) (tokens : List Token) :
    Procedure.call.body.interpret behind tokens = Procedure.call.read behind tokens := by
  rw [Procedure.read, outcome_call]
  simp only [Procedure.body, Procedure.read, Script.interpret, Script.interpret_lookKind,
    Script.interpret_ite]
  refine Outcome.andThen_congr fun callee rest => ?_
  rw [outcome_callTail]
  simp

theorem interpret_chainedCall (behind : Span) (callee : Phrase) (tokens : List Token) :
    (Procedure.chainedCall callee).body.interpret behind tokens =
      (Procedure.chainedCall callee).read behind tokens := by
  rw [Procedure.read]
  simp only [Procedure.body, Procedure.read, Script.interpret, Script.interpret_lookKind,
    Script.interpret_ite]
  refine Outcome.andThen_congr fun list rest => ?_
  rw [outcome_callTail]
  simp

theorem interpret_argumentList (behind : Span) (tokens : List Token) :
    Procedure.argumentList.body.interpret behind tokens =
      Procedure.argumentList.read behind tokens := by
  rw [Procedure.read, outcome_argumentList]
  simp only [Procedure.body, Procedure.read, Script.interpret, Script.interpret_expectKind,
    Script.interpret_lookKind, Script.interpret_ite]
  refine Outcome.andThen_congr fun opening rest => ?_
  rw [outcome_arguments]
  split
  · rfl
  · simp [Outcome.andThen_assoc]

theorem interpret_operand (behind : Span) (tokens : List Token) :
    Procedure.operand.body.interpret behind tokens = Procedure.operand.read behind tokens := by
  cases tokens with
  | nil =>
      rw [Procedure.read, outcome_operand_nil]
      rfl
  | cons first rest =>
      rw [Procedure.read, outcome_operand_cons]
      cases reads : Number.read? first.text <;>
        simp [Procedure.body, Procedure.read, Script.interpret, reads]

/-- With the readers in the place of the procedures it enters, a body comes to what its reader
yields. -/
theorem interpret_body (behind : Span) (procedure : Procedure) (tokens : List Token) :
    procedure.body.interpret behind tokens = procedure.read behind tokens := by
  cases procedure with
  | program => simp [Procedure.body, Procedure.read, Script.interpret]
  | statements block =>
      rw [Procedure.read, outcome_statements]
      simp [Procedure.body, Procedure.read, Script.interpret]
  | statement => exact interpret_statement behind tokens
  | variableDeclaration constant keyword =>
      exact interpret_variableDeclaration behind constant keyword tokens
  | functionDeclaration keyword => exact interpret_functionDeclaration behind keyword tokens
  | expression =>
      rw [Procedure.read, outcome_expression]
      simp [Procedure.body, Procedure.read, Script.interpret]
  | objectLiteral => exact interpret_objectLiteral behind tokens
  | entries =>
      rw [Procedure.read, outcome_entries]
      simp [Procedure.body, Procedure.read, Script.interpret]
  | entry =>
      rw [Procedure.read, outcome_entry]
      simp [Procedure.body, Procedure.read, Script.interpret]
  | sum =>
      rw [Procedure.read, outcome_sum]
      simp [Procedure.body, Procedure.read, Script.interpret]
  | sumTail left =>
      rw [Procedure.read, outcome_sumTail, Procedure.body, Script.interpret_lookOperator]
      cases (nextOperator? tokens).filter Operator.isAdditive with
      | none => rfl
      | some operator => simp [Script.interpret, Procedure.read]
  | product =>
      rw [Procedure.read, outcome_product]
      simp [Procedure.body, Procedure.read, Script.interpret]
  | productTail left =>
      rw [Procedure.read, outcome_productTail, Procedure.body, Script.interpret_lookOperator]
      cases (nextOperator? tokens).filter Operator.isMultiplicative with
      | none => rfl
      | some operator => simp [Script.interpret, Procedure.read]
  | call => exact interpret_call behind tokens
  | chainedCall callee => exact interpret_chainedCall behind callee tokens
  | argumentList => exact interpret_argumentList behind tokens
  | argumentsTail =>
      rw [Procedure.read, outcome_argumentsTail]
      simp [Procedure.body, Procedure.read, Script.interpret]
  | member =>
      rw [Procedure.read, outcome_member]
      simp [Procedure.body, Procedure.read, Script.interpret]
  | memberTail object =>
      rw [Procedure.read, outcome_memberTail]
      simp [Procedure.body, Procedure.read, Script.interpret]
  | operand => exact interpret_operand behind tokens

/-! ## Runs -/

/-- A script that runs to its end comes to what it is interpreted as. -/
theorem Runs.interpret_eq {behind : Span} {α : Type} {script : Script α} {tokens : List Token}
    {result : Outcome α} (runs : Runs behind script tokens result) :
    script.interpret behind tokens = result := by
  induction runs with
  | yield => rfl
  | fail => rfl
  | look _ inductionHypothesis => exact inductionHypothesis
  | advance _ inductionHypothesis => exact inductionHypothesis
  | request _ inductionHypothesis => exact inductionHypothesis
  | requestBehind => rfl
  | enter _ _ firstYields laterYields =>
      rw [interpret_body] at firstYields
      rw [Script.interpret, firstYields, Outcome.andThen_ok, laterYields]
  | enterFails _ fails =>
      rw [interpret_body] at fails
      rw [Script.interpret, fails, Outcome.andThen_error]

/-- A procedure that runs to its end comes to what its reader yields. -/
theorem Runs.read_eq {behind : Span} {procedure : Procedure} {tokens : List Token}
    {result : Outcome procedure.Result} (runs : Runs behind procedure.body tokens result) :
    procedure.read behind tokens = result :=
  (interpret_body behind procedure tokens).symm.trans runs.interpret_eq

end NanoScript.Reading
