import NanoScript.Proofs.Grammar.Statement
import NanoScript.Reading.Statement

/-!
Contract: what may stand behind a derivation, and what it starts with.

Owns:
- for each level of the grammar, the tokens before which it cannot go on;
- the tokens that end every expression;
- the tokens that statements start with, and those that may stand behind one.
-/

namespace NanoScript

open Reading

/-! ## The next token -/

@[simp] theorem Reading.nextKind_cons (token : Token) (rest : List Token) :
    nextKind (token :: rest) = token.kind :=
  rfl

theorem Reading.nextKind_append {left : List Token} (nonempty : left ≠ []) (right : List Token) :
    nextKind (left ++ right) = nextKind left := by
  cases left with
  | nil => exact absurd rfl nonempty
  | cons token rest => rfl

/-- Only an operator token has an operator. -/
theorem Reading.nextOperator?_eq_none_of_kind {tokens : List Token}
    (differs : nextKind tokens ≠ .binaryOperator) : nextOperator? tokens = none := by
  cases tokens with
  | nil => rfl
  | cons token rest => exact if_neg differs

theorem Reading.nextOperator?_cons {token : Token} (ofKind : token.kind = .binaryOperator)
    (rest : List Token) : nextOperator? (token :: rest) = Operator.ofSymbol? token.text :=
  if_pos ofKind

namespace Grammar

/-! ## Where a level cannot go on -/

/-- No member access goes on here. -/
def StopsMember (tokens : List Token) : Prop :=
  nextKind tokens ≠ .dot ∧ nextKind tokens ≠ .openBracket

/-- No member access and no call goes on here. -/
def StopsCall (tokens : List Token) : Prop :=
  StopsMember tokens ∧ nextKind tokens ≠ .openParen

/-- No product goes on here. -/
def StopsProduct (tokens : List Token) : Prop :=
  StopsCall tokens ∧ (nextOperator? tokens).filter Operator.isMultiplicative = none

/-- No sum goes on here. -/
def StopsSum (tokens : List Token) : Prop :=
  StopsCall tokens ∧ nextOperator? tokens = none

theorem StopsSum.stopsProduct {tokens : List Token} (stops : StopsSum tokens) :
    StopsProduct tokens := by
  refine ⟨stops.1, ?_⟩
  rw [stops.2]
  rfl

/-- An object literal cannot go on; a sum in its place can. -/
def ObjectLiteral.StopsBefore (tokens : List Token) : ObjectLiteral → Prop
  | .literal .. => True
  | .sum _ => StopsSum tokens

/-- An expression cannot go on here. -/
def Expression.StopsBefore (tokens : List Token) : Expression → Prop
  | .plain whole => whole.StopsBefore tokens ∧ nextKind tokens ≠ .equals
  | .assignment _ _ value => value.StopsBefore tokens

/-- No expression goes on before a token of such a kind. -/
def endsExpression : Token.Kind → Bool
  | .dot | .openBracket | .openParen | .binaryOperator | .equals => false
  | _ => true

theorem stopsSum_of_endsExpression {tokens : List Token}
    (ends : endsExpression (nextKind tokens) = true) : StopsSum tokens := by
  have notOperator : nextKind tokens ≠ .binaryOperator := by
    intro same
    rw [same] at ends
    cases ends
  refine ⟨⟨⟨?_, ?_⟩, ?_⟩, nextOperator?_eq_none_of_kind notOperator⟩ <;>
    · intro same
      rw [same] at ends
      cases ends

theorem stopsSum_of_equals {tokens : List Token} (atEquals : nextKind tokens = .equals) :
    StopsSum tokens := by
  refine ⟨⟨⟨?_, ?_⟩, ?_⟩, nextOperator?_eq_none_of_kind ?_⟩ <;> rw [atEquals] <;> decide

theorem ObjectLiteral.stopsBefore_of_equals (whole : ObjectLiteral) {tokens : List Token}
    (atEquals : nextKind tokens = .equals) : whole.StopsBefore tokens := by
  cases whole with
  | literal opening entries closing => exact trivial
  | sum whole => exact stopsSum_of_equals atEquals

/-- An expression stops before every token that ends expressions, and, if a literal is the last
thing in it, also before a parenthesis. -/
theorem Expression.stopsBefore_of_kind (expression : Expression) {tokens : List Token}
    (ends : endsExpression (nextKind tokens) = true ∨
      nextKind tokens = .openParen ∧ expression.EndsInLiteral) :
    expression.StopsBefore tokens := by
  match expression with
  | .plain whole =>
      refine ⟨?_, ?_⟩
      · cases whole with
        | literal opening entries closing => exact trivial
        | sum whole =>
            rcases ends with ends | ⟨_, literal⟩
            · exact stopsSum_of_endsExpression ends
            · exact literal.elim
      · intro same
        rw [same] at ends
        rcases ends with ends | ⟨atParen, _⟩
        · cases ends
        · cases atParen
  | .assignment _ _ value => exact value.stopsBefore_of_kind ends

theorem Expression.stopsBefore_of_ends (expression : Expression) {tokens : List Token}
    (ends : endsExpression (nextKind tokens) = true) : expression.StopsBefore tokens :=
  expression.stopsBefore_of_kind (.inl ends)

theorem Expression.stopsBefore_terminal (expression : Expression) {kind : Token.Kind}
    (terminal : Terminal kind) (rest : List Token) (ends : endsExpression kind = true) :
    expression.StopsBefore (terminal.token :: rest) := by
  refine expression.stopsBefore_of_ends ?_
  rw [nextKind_cons, terminal.ofKind]
  exact ends

/-! ## Behind operators and tails -/

theorem OperatorMark.nextOperator? {level : Operator → Bool} (mark : OperatorMark level)
    (rest : List Token) : Reading.nextOperator? (mark.token :: rest) = some mark.operator :=
  (nextOperator?_cons mark.ofKind rest).trans mark.ofSymbol

theorem OperatorMark.stopsCall {level : Operator → Bool} (mark : OperatorMark level)
    (rest : List Token) : StopsCall (mark.token :: rest) := by
  refine ⟨⟨?_, ?_⟩, ?_⟩ <;> rw [nextKind_cons, mark.ofKind] <;> decide

theorem ArgumentsTail.endsExpression_nextKind (tail : ArgumentsTail) {rest : List Token}
    (closes : nextKind rest = .closeParen) :
    endsExpression (nextKind (tail.tokens ++ rest)) = true := by
  cases tail with
  | done =>
      change endsExpression (nextKind rest) = true
      rw [closes]
      rfl
  | more comma argument others =>
      change endsExpression comma.token.kind = true
      rw [comma.ofKind]
      rfl

theorem ArgumentList.starts (list : ArgumentList) (rest : List Token) :
    nextKind (list.tokens ++ rest) = .openParen := by
  cases list with
  | mk opening listed closing => exact opening.ofKind

theorem CallTail.stopsMember (tail : CallTail) {rest : List Token} (stops : StopsCall rest) :
    StopsMember (tail.tokens ++ rest) := by
  cases tail with
  | done => exact stops.1
  | more arguments others =>
      rw [CallTail.tokens, List.append_assoc]
      constructor <;>
        · rw [arguments.starts]
          decide

theorem ProductTail.stopsCall (tail : ProductTail) {rest : List Token}
    (stops : StopsProduct rest) : StopsCall (tail.tokens ++ rest) := by
  cases tail with
  | done => exact stops.1
  | more mark right others => exact mark.stopsCall _

theorem SumTail.stopsProduct (tail : SumTail) {rest : List Token} (stops : StopsSum rest) :
    StopsProduct (tail.tokens ++ rest) := by
  cases tail with
  | done => exact stops.stopsProduct
  | more mark right others =>
      refine ⟨mark.stopsCall _, ?_⟩
      have additive : mark.operator.isMultiplicative = false := by
        unfold Operator.isMultiplicative
        rw [mark.onLevel]
        rfl
      change (Reading.nextOperator? (mark.token :: _)).filter _ = none
      rw [mark.nextOperator?, Option.filter_some, additive]
      rfl

/-! ## What derivations start with -/

/-- The tokens that operands start with. -/
def startsOperand : Token.Kind → Bool
  | .identifier | .number | .openParen => true
  | _ => false

/-- The tokens that expressions start with. -/
def startsExpression : Token.Kind → Bool
  | .openBrace => true
  | kind => startsOperand kind

/-- The tokens that statements start with. -/
def startsStatement : Token.Kind → Bool
  | .letKeyword | .constKeyword | .fnKeyword => true
  | kind => startsExpression kind

theorem startsExpression_of_startsOperand {kind : Token.Kind}
    (starts : startsOperand kind = true) : startsExpression kind = true := by
  cases kind <;> first | rfl | cases starts

theorem startsStatement_of_startsExpression {kind : Token.Kind}
    (starts : startsExpression kind = true) : startsStatement kind = true := by
  cases kind <;> first | rfl | cases starts

theorem Operand.starts (operand : Operand) (rest : List Token) :
    startsOperand (nextKind (operand.tokens ++ rest)) = true := by
  cases operand with
  | name name =>
      change startsOperand name.token.kind = true
      rw [name.ofKind]
      rfl
  | number numeral =>
      change startsOperand numeral.token.kind = true
      rw [numeral.ofKind]
      rfl
  | group opening value closing =>
      change startsOperand opening.token.kind = true
      rw [opening.ofKind]
      rfl

theorem Call.starts (call : Call) (rest : List Token) :
    startsOperand (nextKind (call.tokens ++ rest)) = true := by
  obtain ⟨⟨object, members⟩, calls⟩ := call
  simp only [Call.tokens, Member.tokens, List.append_assoc]
  exact object.starts _

theorem Sum.starts (sum : Sum) (rest : List Token) :
    startsOperand (nextKind (sum.tokens ++ rest)) = true := by
  obtain ⟨⟨first, factors⟩, summands⟩ := sum
  simp only [Sum.tokens, Product.tokens, List.append_assoc]
  exact first.starts _

theorem ObjectLiteral.starts (whole : ObjectLiteral) (rest : List Token) :
    startsExpression (nextKind (whole.tokens ++ rest)) = true := by
  cases whole with
  | literal opening entries closing =>
      change startsExpression opening.token.kind = true
      rw [opening.ofKind]
      rfl
  | sum whole => exact startsExpression_of_startsOperand (whole.starts rest)

theorem Expression.starts (expression : Expression) (rest : List Token) :
    startsExpression (nextKind (expression.tokens ++ rest)) = true := by
  cases expression with
  | plain whole => exact whole.starts rest
  | assignment target equals value =>
      simp only [Expression.tokens, List.append_assoc]
      exact target.starts _

theorem Entry.starts (entry : Entry) (rest : List Token) :
    nextKind (entry.tokens ++ rest) = .identifier := by
  cases entry with
  | shorthand key => exact key.ofKind
  | keyed key colon value => exact key.ofKind

theorem Statement.starts (statement : Statement) (rest : List Token) :
    startsStatement (nextKind (statement.tokens ++ rest)) = true := by
  cases statement with
  | declaration keyword name semicolon =>
      change startsStatement keyword.token.kind = true
      rw [keyword.ofKind]
      rfl
  | initialized constant keyword name equals value semicolon =>
      change startsStatement keyword.token.kind = true
      rw [keyword.ofKind]
      cases constant <;> rfl
  | function keyword name parameters opening body closing =>
      change startsStatement keyword.token.kind = true
      rw [keyword.ofKind]
      rfl
  | terminated value semicolon =>
      simp only [Statement.tokens, List.append_assoc]
      exact startsStatement_of_startsExpression (value.starts _)
  | unterminated value => exact startsStatement_of_startsExpression (value.starts _)

theorem Statement.tokens_ne_nil (statement : Statement) : statement.tokens ≠ [] := by
  intro empty
  have starts := statement.starts []
  rw [empty] at starts
  cases starts

/-- The next token after a statement is that of the statements behind it, if there are any. -/
theorem Statements.nextKind_append (derivation : Statements) (rest : List Token) :
    derivation.tokens = [] ∨
      nextKind (derivation.tokens ++ rest) = nextKind derivation.tokens := by
  cases derivation with
  | none => exact .inl rfl
  | more first others =>
      refine .inr (Reading.nextKind_append ?_ rest)
      intro empty
      exact first.tokens_ne_nil (List.append_eq_nil_iff.1 empty).1

/-- What a statement may precede, it may also precede at the end of its list. -/
theorem Statement.mayPrecede_of_append (derivation : Statement) {others : Statements}
    {rest : List Token}
    (may : derivation.MayPrecede (nextKind (others.tokens ++ rest))) :
    derivation.MayPrecede (nextKind others.tokens) := by
  cases derivation with
  | unterminated value =>
      intro atParen
      rcases others.nextKind_append rest with empty | same
      · rw [empty] at atParen
        cases atParen
      · exact may (same.trans atParen)
  | _ => exact trivial

/-! ## What may stand behind a statement -/

/-- Nothing ends a block where a statement starts, and no semicolon stands there. -/
theorem not_endsBefore_of_startsStatement {kind : Token.Kind} (block : Block)
    (starts : startsStatement kind = true) : block.endsBefore kind = false := by
  cases block <;> cases kind <;> first | rfl | cases starts

/-- What may stand behind a statement: another statement, or a token that ends a block. -/
def mayFollowStatement (kind : Token.Kind) : Bool :=
  startsStatement kind || Block.functionBody.endsBefore kind

theorem mayFollowStatement_of_endsBefore {block : Block} {kind : Token.Kind}
    (ends : block.endsBefore kind = true) : mayFollowStatement kind = true := by
  cases block <;> cases kind <;> first | rfl | cases ends

theorem Statements.mayFollow (derivation : Statements) {block : Block} {rest : List Token}
    (ends : block.endsBefore (nextKind rest) = true) :
    mayFollowStatement (nextKind (derivation.tokens ++ rest)) = true := by
  cases derivation with
  | none => exact mayFollowStatement_of_endsBefore ends
  | more first others =>
      have starts := first.starts (others.tokens ++ rest)
      rw [Statements.tokens, List.append_assoc]
      unfold mayFollowStatement
      rw [starts]
      rfl

theorem Expression.stopsBefore_of_mayFollow (value : Expression) {tokens : List Token}
    (follows : mayFollowStatement (nextKind tokens) = true)
    (may : nextKind tokens = .openParen → value.EndsInLiteral) : value.StopsBefore tokens := by
  refine value.stopsBefore_of_kind ?_
  by_cases atParen : nextKind tokens = .openParen
  · exact .inr ⟨atParen, may atParen⟩
  · refine .inl ?_
    revert follows atParen
    cases nextKind tokens <;> decide

/-- A statement may stand before a block's end if it may stand before what follows in the block. -/
theorem Statement.mayPrecede_append (derivation : Statement) {others : Statements}
    {block : Block} {rest : List Token}
    (may : derivation.MayPrecede (nextKind others.tokens))
    (ends : block.endsBefore (nextKind rest) = true) :
    derivation.MayPrecede (nextKind (others.tokens ++ rest)) := by
  cases derivation with
  | unterminated value =>
      intro atParen
      rcases others.nextKind_append rest with empty | same
      · rw [empty, List.nil_append] at atParen
        rw [atParen] at ends
        cases block <;> cases ends
      · exact may (same.symm.trans atParen)
  | _ => exact trivial

end Grammar

end NanoScript
