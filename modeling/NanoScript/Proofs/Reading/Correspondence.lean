import NanoScript.Proofs.Phrase.Correspondence
import NanoScript.Proofs.Reading.Outcome

/-!
Contract: reading depends on the kinds and the texts of tokens, not on their places.

Owns:
- alignments: which tokens and which places of one list correspond to those of another;
- the failures and the outcomes that correspond under an alignment;
- one theorem for each reader: on corresponding tokens it yields phrases that correspond, or
  failures that correspond, and leaves corresponding tokens.

The induction is on the count of tokens and, on the same tokens, the level of the grammar: the
measure by which the readers themselves end.
-/

namespace NanoScript.Reading

/-! ## Alignments -/

/-- A correspondence between the tokens of two lists, and between the places that phrases made of
them cover. -/
structure Alignment where
  tokens : Token → Token → Prop
  spans : Span → Span → Prop
  kind : ∀ {left right}, tokens left right → left.kind = right.kind
  text : ∀ {left right}, tokens left right → left.text = right.text
  span : ∀ {left right}, tokens left right → spans left.span right.span
  merge : ∀ {left right other another}, spans left right → spans other another →
    spans (left.merge other) (right.merge another)

namespace Alignment

variable {α β γ δ : Type} (alignment : Alignment)

/-- Phrases of one form at corresponding places. -/
abbrev Phrases : Phrase → Phrase → Prop :=
  Phrase.Corresponds alignment.spans

/-- Entries of one form at corresponding places. -/
abbrev Entries : Entry → Entry → Prop :=
  Entry.Corresponds alignment.spans

/-- Failures of one kind at corresponding tokens or places. -/
inductive Errors : SyntaxError → SyntaxError → Prop
  | unexpectedToken {left right : Token} {expected : Expectation}
      (found : alignment.tokens left right) :
      Errors (.unexpectedToken left expected) (.unexpectedToken right expected)
  | unexpectedEnd {left right : Span} {expected : Expectation}
      (places : alignment.spans left right) :
      Errors (.unexpectedEnd expected left) (.unexpectedEnd expected right)
  | constantWithoutValue {name : String} {left right : Span}
      (places : alignment.spans left right) :
      Errors (.constantWithoutValue name left) (.constantWithoutValue name right)
  | parameterNotAName {left right : Span} (places : alignment.spans left right) :
      Errors (.parameterNotAName left) (.parameterNotAName right)
  | malformedNumber {left right : Token} (found : alignment.tokens left right)
      (isNumber : left.kind = .number) (unreadable : Number.read? left.text = none) :
      Errors (.malformedNumber left.text left.span) (.malformedNumber right.text right.span)

/-- Outcomes of one sort: corresponding values before corresponding tokens, or corresponding
failures. -/
inductive Outcomes (values : α → β → Prop) : Outcome α → Outcome β → Prop
  | ok {left : α} {right : β} {leftRest rightRest : List Token} (same : values left right)
      (rests : List.Forall₂ alignment.tokens leftRest rightRest) :
      Outcomes values (.ok (left, leftRest)) (.ok (right, rightRest))
  | error {left right : SyntaxError} (errors : alignment.Errors left right) :
      Outcomes values (.error left) (.error right)

variable {alignment} {left right : List Token} {leftBehind rightBehind : Span}

theorem Outcomes.andThen {values : α → β → Prop} {lastValues : γ → δ → Prop}
    {leftFirst : Outcome α} {rightFirst : Outcome β} {leftNext : α → List Token → Outcome γ}
    {rightNext : β → List Token → Outcome δ}
    (outcomes : alignment.Outcomes values leftFirst rightFirst)
    (goesOn : ∀ {leftValue rightValue leftRest rightRest},
      leftFirst = .ok (leftValue, leftRest) → values leftValue rightValue →
        List.Forall₂ alignment.tokens leftRest rightRest →
          alignment.Outcomes lastValues (leftNext leftValue leftRest)
            (rightNext rightValue rightRest)) :
    alignment.Outcomes lastValues (leftFirst.andThen leftNext) (rightFirst.andThen rightNext) := by
  cases outcomes with
  | ok same rests => exact goesOn rfl same rests
  | error errors => exact .error errors

/-! ## One token -/

theorem errors_atToken {leftToken rightToken : Token}
    (heads : alignment.tokens leftToken rightToken) (expected : Expectation) :
    alignment.Errors (.atToken leftToken expected) (.atToken rightToken expected) := by
  unfold SyntaxError.atToken
  rw [alignment.kind heads]
  split
  · exact .unexpectedEnd (alignment.span heads)
  · exact .unexpectedToken heads

theorem nextKind_eq (tokens : List.Forall₂ alignment.tokens left right) :
    nextKind left = nextKind right := by
  cases tokens with
  | nil => rfl
  | cons heads tails => exact alignment.kind heads

theorem nextOperator?_eq (tokens : List.Forall₂ alignment.tokens left right) :
    nextOperator? left = nextOperator? right := by
  cases tokens with
  | nil => rfl
  | cons heads tails =>
      unfold nextOperator?
      dsimp only
      rw [alignment.kind heads, alignment.text heads]

theorem tails (tokens : List.Forall₂ alignment.tokens left right) :
    List.Forall₂ alignment.tokens left.tail right.tail := by
  cases tokens with
  | nil => exact .nil
  | cons heads tails => exact tails

/-- There are tokens behind the next one only if there is a next one. -/
theorem length_tail_lt {tokens : List Token} {kind : Token.Kind} (next : nextKind tokens = kind)
    (notEnd : kind ≠ .endOfInput) : tokens.tail.length < tokens.length := by
  cases tokens with
  | nil => exact absurd next.symm notEnd
  | cons first rest => exact Nat.lt_succ_self _

theorem dropSemicolons (tokens : List.Forall₂ alignment.tokens left right) :
    List.Forall₂ alignment.tokens (dropSemicolon left) (dropSemicolon right) := by
  cases tokens with
  | nil => exact .nil
  | cons heads tails =>
      unfold dropSemicolon
      dsimp only
      rw [alignment.kind heads]
      split
      · exact tails
      · exact .cons heads tails

theorem expect_aligned (behinds : alignment.spans leftBehind rightBehind) (kind : Token.Kind)
    (expected : Expectation) (tokens : List.Forall₂ alignment.tokens left right) :
    alignment.Outcomes alignment.tokens (outcome (expect leftBehind kind expected left))
      (outcome (expect rightBehind kind expected right)) := by
  cases tokens with
  | nil => exact .error (.unexpectedEnd behinds)
  | cons heads tails =>
      rw [outcome_expect_cons, outcome_expect_cons, alignment.kind heads]
      split
      · exact .ok heads tails
      · exact .error (errors_atToken heads expected)

/-! ## Expressions -/

mutual

theorem expression_aligned (behinds : alignment.spans leftBehind rightBehind)
    {left right : List Token} (tokens : List.Forall₂ alignment.tokens left right) :
    alignment.Outcomes alignment.Phrases (outcome (expression leftBehind left))
      (outcome (expression rightBehind right)) := by
  rw [outcome_expression, outcome_expression]
  refine (objectLiteral_aligned behinds tokens).andThen fun {_ _ rest _} first targets rests => ?_
  have shorter := length_lt_of_outcome first
  have tailShorter : rest.tail.length ≤ rest.length := by simp
  rw [nextKind_eq rests]
  split
  · refine (expression_aligned behinds (tails rests)).andThen fun _ values rests => ?_
    exact .ok (.ofLayer (.assignment targets values (alignment.merge targets.span values.span)))
      rests
  · exact .ok targets rests
termination_by 16 * left.length + 9
decreasing_by all_goals omega

theorem objectLiteral_aligned (behinds : alignment.spans leftBehind rightBehind)
    {left right : List Token} (tokens : List.Forall₂ alignment.tokens left right) :
    alignment.Outcomes alignment.Phrases (outcome (objectLiteral leftBehind left))
      (outcome (objectLiteral rightBehind right)) := by
  cases tokens with
  | nil =>
      rw [outcome_objectLiteral_nil, outcome_objectLiteral_nil]
      exact sum_aligned behinds .nil
  | @cons leftHead _ leftTail _ heads tails =>
      have shorter : leftTail.length < (leftHead :: leftTail).length := Nat.lt_succ_self _
      rw [outcome_objectLiteral_cons, outcome_objectLiteral_cons, alignment.kind heads]
      split
      · refine (entries_aligned behinds tails).andThen fun _ listed rests => ?_
        refine (expect_aligned behinds .closeBrace .objectClosing rests).andThen
          fun _ closes rests => ?_
        exact .ok (.ofLayer (.objectLiteral listed
          (alignment.merge (alignment.span heads) (alignment.span closes)))) rests
      · exact sum_aligned behinds (.cons heads tails)
termination_by 16 * left.length + 8
decreasing_by all_goals omega

theorem entries_aligned (behinds : alignment.spans leftBehind rightBehind)
    {left right : List Token} (tokens : List.Forall₂ alignment.tokens left right) :
    alignment.Outcomes (List.Forall₂ alignment.Entries) (outcome (entries leftBehind left))
      (outcome (entries rightBehind right)) := by
  rw [outcome_entries, outcome_entries, nextKind_eq tokens]
  split
  · exact .ok .nil tokens
  · refine (entry_aligned behinds tokens).andThen fun first firsts rests => ?_
    have shorter := length_lt_of_outcome first
    refine (entries_aligned behinds rests).andThen fun _ others rests => ?_
    exact .ok (.cons firsts others) rests
termination_by 16 * left.length + 11
decreasing_by all_goals omega

theorem entry_aligned (behinds : alignment.spans leftBehind rightBehind)
    {left right : List Token} (tokens : List.Forall₂ alignment.tokens left right) :
    alignment.Outcomes alignment.Entries (outcome (entry leftBehind left))
      (outcome (entry rightBehind right)) := by
  rw [outcome_entry, outcome_entry]
  refine (expect_aligned behinds .identifier .entryKey tokens).andThen fun first keys rests => ?_
  have shorter := length_lt_of_outcome first
  rw [nextKind_eq rests, alignment.text keys]
  split
  · exact .ok (.shorthand (alignment.span keys)) (tails rests)
  split
  · exact .ok (.shorthand (alignment.span keys)) rests
  refine (expect_aligned behinds .colon .entryColon rests).andThen fun colon _ rests => ?_
  have shorterStill := length_lt_of_outcome colon
  refine (expression_aligned behinds rests).andThen fun _ values rests => ?_
  have places := alignment.merge (alignment.span keys) values.span
  rw [nextKind_eq rests]
  split
  · exact .ok (.keyed values places) rests
  · exact (expect_aligned behinds .comma .entryEnd rests).andThen fun _ _ rests =>
      .ok (.keyed values places) rests
termination_by 16 * left.length + 10
decreasing_by all_goals omega

theorem sum_aligned (behinds : alignment.spans leftBehind rightBehind)
    {left right : List Token} (tokens : List.Forall₂ alignment.tokens left right) :
    alignment.Outcomes alignment.Phrases (outcome (sum leftBehind left))
      (outcome (sum rightBehind right)) := by
  rw [outcome_sum, outcome_sum]
  refine (product_aligned behinds tokens).andThen fun first firsts rests => ?_
  have shorter := length_lt_of_outcome first
  exact sumTail_aligned behinds firsts rests
termination_by 16 * left.length + 7
decreasing_by all_goals omega

theorem sumTail_aligned (behinds : alignment.spans leftBehind rightBehind)
    {leftOperand rightOperand : Phrase} (operands : alignment.Phrases leftOperand rightOperand)
    {left right : List Token} (tokens : List.Forall₂ alignment.tokens left right) :
    alignment.Outcomes alignment.Phrases (outcome (sumTail leftBehind leftOperand left))
      (outcome (sumTail rightBehind rightOperand right)) := by
  have tailShorter : left.tail.length ≤ left.length := by simp
  rw [outcome_sumTail, outcome_sumTail, nextOperator?_eq tokens]
  split
  · refine (product_aligned behinds (tails tokens)).andThen fun first seconds rests => ?_
    have shorter := length_lt_of_outcome first
    refine sumTail_aligned behinds (.ofLayer ?_) rests
    exact .binary operands seconds (alignment.merge operands.span seconds.span)
  · exact .ok operands tokens
termination_by 16 * left.length + 6
decreasing_by all_goals omega

theorem product_aligned (behinds : alignment.spans leftBehind rightBehind)
    {left right : List Token} (tokens : List.Forall₂ alignment.tokens left right) :
    alignment.Outcomes alignment.Phrases (outcome (product leftBehind left))
      (outcome (product rightBehind right)) := by
  rw [outcome_product, outcome_product]
  refine (call_aligned behinds tokens).andThen fun first firsts rests => ?_
  have shorter := length_lt_of_outcome first
  exact productTail_aligned behinds firsts rests
termination_by 16 * left.length + 5
decreasing_by all_goals omega

theorem productTail_aligned (behinds : alignment.spans leftBehind rightBehind)
    {leftOperand rightOperand : Phrase} (operands : alignment.Phrases leftOperand rightOperand)
    {left right : List Token} (tokens : List.Forall₂ alignment.tokens left right) :
    alignment.Outcomes alignment.Phrases (outcome (productTail leftBehind leftOperand left))
      (outcome (productTail rightBehind rightOperand right)) := by
  have tailShorter : left.tail.length ≤ left.length := by simp
  rw [outcome_productTail, outcome_productTail, nextOperator?_eq tokens]
  split
  · refine (call_aligned behinds (tails tokens)).andThen fun first seconds rests => ?_
    have shorter := length_lt_of_outcome first
    refine productTail_aligned behinds (.ofLayer ?_) rests
    exact .binary operands seconds (alignment.merge operands.span seconds.span)
  · exact .ok operands tokens
termination_by 16 * left.length + 4
decreasing_by all_goals omega

theorem call_aligned (behinds : alignment.spans leftBehind rightBehind)
    {left right : List Token} (tokens : List.Forall₂ alignment.tokens left right) :
    alignment.Outcomes alignment.Phrases (outcome (call leftBehind left))
      (outcome (call rightBehind right)) := by
  rw [outcome_call, outcome_call]
  refine (member_aligned behinds tokens).andThen fun first callees rests => ?_
  have shorter := length_lt_of_outcome first
  exact callTail_aligned behinds callees rests
termination_by 16 * left.length + 3
decreasing_by all_goals omega

theorem callTail_aligned (behinds : alignment.spans leftBehind rightBehind)
    {leftCallee rightCallee : Phrase} (callees : alignment.Phrases leftCallee rightCallee)
    {left right : List Token} (tokens : List.Forall₂ alignment.tokens left right) :
    alignment.Outcomes alignment.Phrases (outcome (callTail leftBehind leftCallee left))
      (outcome (callTail rightBehind rightCallee right)) := by
  rw [outcome_callTail, outcome_callTail, nextKind_eq tokens]
  split
  · refine (argumentList_aligned behinds tokens).andThen fun first lists rests => ?_
    have shorter := length_lt_of_outcome first
    refine callTail_aligned behinds (.ofLayer ?_) rests
    exact .call callees lists.1 (alignment.merge callees.span lists.2)
  · exact .ok callees tokens
termination_by 16 * left.length + 2
decreasing_by all_goals omega

/-- Arguments correspond one by one, and so do the places of the parentheses behind them. -/
theorem argumentList_aligned (behinds : alignment.spans leftBehind rightBehind)
    {left right : List Token} (tokens : List.Forall₂ alignment.tokens left right) :
    alignment.Outcomes
      (fun leftList rightList => List.Forall₂ alignment.Phrases leftList.1 rightList.1 ∧
        alignment.spans leftList.2 rightList.2)
      (outcome (argumentList leftBehind left)) (outcome (argumentList rightBehind right)) := by
  rw [outcome_argumentList, outcome_argumentList]
  refine (expect_aligned behinds .openParen .argumentsOpening tokens).andThen
    fun opening _ rests => ?_
  have shorter := length_lt_of_outcome opening
  refine (arguments_aligned behinds rests).andThen fun _ listed rests => ?_
  refine (expect_aligned behinds .closeParen .argumentsClosing rests).andThen
    fun _ closes rests => ?_
  exact .ok ⟨listed, alignment.span closes⟩ rests
termination_by 16 * left.length + 1
decreasing_by all_goals omega

theorem arguments_aligned (behinds : alignment.spans leftBehind rightBehind)
    {left right : List Token} (tokens : List.Forall₂ alignment.tokens left right) :
    alignment.Outcomes (List.Forall₂ alignment.Phrases) (outcome (arguments leftBehind left))
      (outcome (arguments rightBehind right)) := by
  rw [outcome_arguments, outcome_arguments, nextKind_eq tokens]
  split
  · exact .ok .nil tokens
  · refine (expression_aligned behinds tokens).andThen fun first firsts rests => ?_
    have shorter := length_lt_of_outcome first
    refine (argumentsTail_aligned behinds rests).andThen fun _ others rests => ?_
    exact .ok (.cons firsts others) rests
termination_by 16 * left.length + 10
decreasing_by all_goals omega

theorem argumentsTail_aligned (behinds : alignment.spans leftBehind rightBehind)
    {left right : List Token} (tokens : List.Forall₂ alignment.tokens left right) :
    alignment.Outcomes (List.Forall₂ alignment.Phrases) (outcome (argumentsTail leftBehind left))
      (outcome (argumentsTail rightBehind right)) := by
  have tailShorter : left.tail.length ≤ left.length := by simp
  rw [outcome_argumentsTail, outcome_argumentsTail, nextKind_eq tokens]
  split
  · refine (expression_aligned behinds (tails tokens)).andThen fun first firsts rests => ?_
    have shorter := length_lt_of_outcome first
    refine (argumentsTail_aligned behinds rests).andThen fun _ others rests => ?_
    exact .ok (.cons firsts others) rests
  · exact .ok .nil tokens
termination_by 16 * left.length + 10
decreasing_by all_goals omega

theorem member_aligned (behinds : alignment.spans leftBehind rightBehind)
    {left right : List Token} (tokens : List.Forall₂ alignment.tokens left right) :
    alignment.Outcomes alignment.Phrases (outcome (member leftBehind left))
      (outcome (member rightBehind right)) := by
  rw [outcome_member, outcome_member]
  refine (operand_aligned behinds tokens).andThen fun first objects rests => ?_
  have shorter := length_lt_of_outcome first
  exact memberTail_aligned behinds objects rests
termination_by 16 * left.length + 2
decreasing_by all_goals omega

theorem memberTail_aligned (behinds : alignment.spans leftBehind rightBehind)
    {leftObject rightObject : Phrase} (objects : alignment.Phrases leftObject rightObject)
    {left right : List Token} (tokens : List.Forall₂ alignment.tokens left right) :
    alignment.Outcomes alignment.Phrases (outcome (memberTail leftBehind leftObject left))
      (outcome (memberTail rightBehind rightObject right)) := by
  rw [outcome_memberTail, outcome_memberTail, nextKind_eq tokens]
  split
  · have tailShorter : left.tail.length ≤ left.length := by simp
    refine (expect_aligned behinds .identifier .memberName (tails tokens)).andThen
      fun first names rests => ?_
    have shorter := length_lt_of_outcome first
    have places := alignment.span names
    rw [alignment.text names]
    refine memberTail_aligned behinds (.ofLayer ?_) rests
    exact .member objects (.ofLayer (.identifier places)) (alignment.merge objects.span places)
  split
  · next atBracket =>
      have tailShorter := length_tail_lt ((nextKind_eq tokens).trans atBracket) (by decide)
      refine (expression_aligned behinds (tails tokens)).andThen fun first properties rests => ?_
      have shorter := length_lt_of_outcome first
      refine (expect_aligned behinds .closeBracket .memberClosing rests).andThen
        fun second closes rests => ?_
      have shorterStill := length_lt_of_outcome second
      refine memberTail_aligned behinds (.ofLayer ?_) rests
      exact .member objects properties (alignment.merge objects.span (alignment.span closes))
  · exact .ok objects tokens
termination_by 16 * left.length
decreasing_by all_goals omega

theorem operand_aligned (behinds : alignment.spans leftBehind rightBehind)
    {left right : List Token} (tokens : List.Forall₂ alignment.tokens left right) :
    alignment.Outcomes alignment.Phrases (outcome (operand leftBehind left))
      (outcome (operand rightBehind right)) := by
  cases tokens with
  | nil =>
      rw [outcome_operand_nil, outcome_operand_nil]
      exact .error (.unexpectedEnd behinds)
  | @cons leftHead _ leftTail _ heads tails =>
      have shorter : leftTail.length < (leftHead :: leftTail).length := Nat.lt_succ_self _
      have places := alignment.span heads
      rw [outcome_operand_cons, outcome_operand_cons, ← alignment.kind heads,
        ← alignment.text heads]
      split
      · exact .ok (.ofLayer (.identifier places)) tails
      split
      · next isNumber =>
          split
          · exact .ok (.ofLayer (.numericLiteral places)) tails
          · next unreadable =>
              have errors := Errors.malformedNumber heads isNumber unreadable
              rw [← alignment.text heads] at errors
              exact .error errors
      split
      · refine (expression_aligned behinds tails).andThen fun _ values rests => ?_
        exact (expect_aligned behinds .closeParen .groupClosing rests).andThen fun _ _ rests =>
          .ok values rests
      · exact .error (errors_atToken heads .operand)
termination_by 16 * left.length + 1
decreasing_by all_goals omega

end

/-! ## Statements -/

theorem parameterNames_aligned {left right : List Phrase}
    (parameters : List.Forall₂ alignment.Phrases left right) :
    (∃ names, parameterNames left = .ok names ∧ parameterNames right = .ok names) ∨
      ∃ leftError rightError, parameterNames left = .error leftError ∧
        parameterNames right = .error rightError ∧ alignment.Errors leftError rightError := by
  induction parameters with
  | nil => exact .inl ⟨[], rfl, rfl⟩
  | @cons leftHead rightHead _ _ heads _ inductionHypothesis =>
      unfold parameterNames
      rw [heads.name?]
      cases rightHead.name? with
      | none => exact .inr ⟨_, _, rfl, rfl, .parameterNotAName heads.span⟩
      | some name =>
          rcases inductionHypothesis with
            ⟨names, leftNames, rightNames⟩ | ⟨_, _, leftFails, rightFails, errors⟩
          · rw [leftNames, rightNames]
            exact .inl ⟨name :: names, rfl, rfl⟩
          · rw [leftFails, rightFails]
            exact .inr ⟨_, _, rfl, rfl, errors⟩

theorem variableDeclaration_aligned (behinds : alignment.spans leftBehind rightBehind)
    (constant : Bool) {leftKeyword rightKeyword : Token}
    (keywords : alignment.tokens leftKeyword rightKeyword)
    (tokens : List.Forall₂ alignment.tokens left right) :
    alignment.Outcomes alignment.Phrases
      (outcome (variableDeclaration leftBehind constant leftKeyword left))
      (outcome (variableDeclaration rightBehind constant rightKeyword right)) := by
  have whole {leftLast rightLast : Token} (lasts : alignment.tokens leftLast rightLast) :
      alignment.spans (leftKeyword.span.merge leftLast.span)
        (rightKeyword.span.merge rightLast.span) :=
    alignment.merge (alignment.span keywords) (alignment.span lasts)
  rw [outcome_variableDeclaration, outcome_variableDeclaration]
  refine (expect_aligned behinds .identifier .variableName tokens).andThen
    fun _ names rests => ?_
  rw [nextKind_eq rests, alignment.text names]
  split
  · refine (expect_aligned behinds .semicolon .declarationEnd rests).andThen
      fun _ semicolons rests => ?_
    split
    · exact .error (.constantWithoutValue (whole semicolons))
    · exact .ok (.ofLayer (.variableDeclaration .none (whole semicolons))) rests
  · refine (expect_aligned behinds .equals .initializer rests).andThen fun _ _ rests => ?_
    refine (expression_aligned behinds rests).andThen fun _ values rests => ?_
    refine (expect_aligned behinds .semicolon .declarationEnd rests).andThen
      fun _ semicolons rests => ?_
    exact .ok (.ofLayer (.variableDeclaration (.some values) (whole semicolons))) rests

mutual

theorem statements_aligned (behinds : alignment.spans leftBehind rightBehind) (block : Block)
    {left right : List Token} (tokens : List.Forall₂ alignment.tokens left right) :
    alignment.Outcomes (List.Forall₂ alignment.Phrases)
      (outcome (statements leftBehind block left))
      (outcome (statements rightBehind block right)) := by
  rw [outcome_statements, outcome_statements, nextKind_eq tokens]
  split
  · exact .ok .nil tokens
  · refine (statement_aligned behinds tokens).andThen fun first firsts rests => ?_
    have shorter := length_lt_of_outcome first
    refine (statements_aligned behinds block rests).andThen fun _ others rests => ?_
    exact .ok (.cons firsts others) rests
termination_by 16 * left.length + 11
decreasing_by all_goals omega

theorem statement_aligned (behinds : alignment.spans leftBehind rightBehind)
    {left right : List Token} (tokens : List.Forall₂ alignment.tokens left right) :
    alignment.Outcomes alignment.Phrases (outcome (statement leftBehind left))
      (outcome (statement rightBehind right)) := by
  cases tokens with
  | nil =>
      rw [outcome_statement_nil, outcome_statement_nil]
      exact expression_aligned behinds .nil
  | @cons leftHead _ leftTail _ heads tails =>
      have shorter : leftTail.length < (leftHead :: leftTail).length := Nat.lt_succ_self _
      rw [outcome_statement_cons, outcome_statement_cons, alignment.kind heads]
      split
      · exact variableDeclaration_aligned behinds false heads tails
      · exact variableDeclaration_aligned behinds true heads tails
      · exact functionDeclaration_aligned behinds heads tails
      · refine (expression_aligned behinds (.cons heads tails)).andThen fun _ values rests => ?_
        exact .ok values (dropSemicolons rests)
termination_by 16 * left.length + 10
decreasing_by all_goals omega

theorem functionDeclaration_aligned (behinds : alignment.spans leftBehind rightBehind)
    {leftKeyword rightKeyword : Token} (keywords : alignment.tokens leftKeyword rightKeyword)
    {left right : List Token} (tokens : List.Forall₂ alignment.tokens left right) :
    alignment.Outcomes alignment.Phrases
      (outcome (functionDeclaration leftBehind leftKeyword left))
      (outcome (functionDeclaration rightBehind rightKeyword right)) := by
  rw [outcome_functionDeclaration, outcome_functionDeclaration]
  refine (expect_aligned behinds .identifier .functionName tokens).andThen
    fun first names rests => ?_
  have shorter := length_lt_of_outcome first
  refine (argumentList_aligned behinds rests).andThen fun second lists rests => ?_
  have shorterStill := length_lt_of_outcome second
  rcases parameterNames_aligned lists.1 with
    ⟨parameters, leftNames, rightNames⟩ | ⟨_, _, leftFails, rightFails, errors⟩
  · rw [leftNames, rightNames, alignment.text names]
    refine (expect_aligned behinds .openBrace .bodyOpening rests).andThen fun third _ rests => ?_
    have shortest := length_lt_of_outcome third
    refine (statements_aligned behinds .functionBody rests).andThen fun _ bodies rests => ?_
    refine (expect_aligned behinds .closeBrace .bodyClosing rests).andThen
      fun _ closes rests => ?_
    exact .ok (.ofLayer (.functionDeclaration bodies
      (alignment.merge (alignment.span keywords) (alignment.span closes)))) rests
  · rw [leftFails, rightFails]
    exact .error errors
termination_by 16 * left.length + 12
decreasing_by all_goals omega

end

/-! ## Programs -/

/-- Programs that end at corresponding marks and have corresponding statements, or corresponding
failures. -/
inductive Programs (alignment : Alignment) :
    Except SyntaxError Phrase → Except SyntaxError Phrase → Prop
  | ok {leftBody rightBody : List Phrase} {leftLast rightLast : Token}
      (bodies : List.Forall₂ alignment.Phrases leftBody rightBody)
      (lasts : alignment.tokens leftLast rightLast) (ofKind : leftLast.kind = .endOfInput) :
      Programs alignment (.ok (.program leftBody ⟨0, leftLast.span.stop⟩))
        (.ok (.program rightBody ⟨0, rightLast.span.stop⟩))
  | error {left right : SyntaxError} (errors : alignment.Errors left right) :
      Programs alignment (.error left) (.error right)

theorem Outcomes.programs {leftRead rightRead : Outcome Phrase}
    (outcomes : alignment.Outcomes
      (fun leftProgram rightProgram => alignment.Programs (.ok leftProgram) (.ok rightProgram))
      leftRead rightRead) :
    alignment.Programs (leftRead.map Prod.fst) (rightRead.map Prod.fst) := by
  cases outcomes with
  | ok same _ => exact same
  | error errors => exact .error errors

/-- Corresponding tokens spell out corresponding programs. -/
theorem ofTokens_aligned (tokens : List.Forall₂ alignment.tokens left right)
    (behinds : alignment.spans (behindAll left) (behindAll right)) :
    alignment.Programs (Phrase.ofTokens left) (Phrase.ofTokens right) := by
  rw [Phrase.ofTokens_eq, Phrase.ofTokens_eq]
  refine Outcomes.programs ?_
  refine (statements_aligned behinds .program tokens).andThen fun _ bodies rests => ?_
  refine (expect_aligned behinds .endOfInput .programEnd rests).andThen fun last lasts rests => ?_
  exact .ok (.ok bodies lasts (eq_cons_of_outcome_expect last).2) rests

end Alignment

end NanoScript.Reading
