import NanoScript.Proofs.Grammar.Follow
import NanoScript.Proofs.Phrase.Bare
import NanoScript.Proofs.Reprinting.Placement

/-!
Contract: what a derivation must stand for if its tokens begin with the words of an expression.

Owns:
- expressions that are recovered: every derivation of a call whose tokens begin with their words
  takes them as its first part, and so does every object literal;
- what is left of a derivation behind its first part, and when nothing is left;
- the recovery of the sums that begin with such an expression.

Nothing here assumes that the words have a derivation that stands for the expression.  That an
object literal or a call stands where the grammar has room for it is a result: at any other place
the derivation could not go on behind it.
-/

namespace NanoScript.Grammar

open Reading Token Word

/-! ## Words of derivations -/

theorem nextKind_eq_firstKind (tokens : List Token) :
    nextKind tokens = firstKind (words tokens) := by
  cases tokens <;> rfl

theorem Terminal.kind_of_word {kind : Token.Kind} (terminal : Terminal kind) {word : Word}
    (same : terminal.token.word = word) : kind = word.kind :=
  terminal.ofKind.symm.trans (congrArg Word.kind same)

/-- A mark that is an operator's word is that operator. -/
theorem OperatorMark.operator_of_word {level : Operator → Bool} (mark : OperatorMark level)
    {operator : Operator} (same : mark.token.word = ofOperator operator) :
    mark.operator = operator := by
  have text : mark.token.text = operator.symbol := congrArg Word.text same
  have found := mark.ofSymbol
  rw [text, Operator.ofSymbol?_symbol] at found
  exact (Option.some.inj found).symm

/-- Tokens that continue a member access. -/
def continuesMember : Token.Kind → Bool
  | .dot | .openBracket => true
  | _ => false

/-- Tokens that continue a call. -/
def continuesCall : Token.Kind → Bool
  | .openParen => true
  | other => continuesMember other

/-- Tokens that continue a sum. -/
def continuesSum : Token.Kind → Bool
  | .binaryOperator => true
  | other => continuesCall other

theorem continuesCall_of_continuesSum {kind : Token.Kind} (stops : continuesSum kind = false) :
    continuesCall kind = false := by
  cases kind <;> first | rfl | cases stops

theorem continuesMember_of_continuesCall {kind : Token.Kind} (stops : continuesCall kind = false) :
    continuesMember kind = false := by
  cases kind <;> first | rfl | cases stops

theorem continuesSum_of_endsExpression {kind : Token.Kind} (ends : endsExpression kind = true) :
    continuesSum kind = false := by
  cases kind <;> first | rfl | cases ends

theorem ne_of_continues {continues : Token.Kind → Bool} {kind other : Token.Kind}
    (stops : continues kind = false) (goesOn : continues other = true) : kind ≠ other := by
  rintro rfl
  rw [goesOn] at stops
  cases stops

theorem stopsSum_of_continuesSum {tokens : List Token}
    (stops : continuesSum (nextKind tokens) = false) : StopsSum tokens :=
  ⟨⟨⟨ne_of_continues stops rfl, ne_of_continues stops rfl⟩, ne_of_continues stops rfl⟩,
    nextOperator?_eq_none_of_kind (ne_of_continues stops rfl)⟩

/-! ## What is left of a derivation behind its first part -/

/-- The member accesses and calls behind the first part of a call. -/
structure Chain where
  members : MemberTail
  calls : CallTail

namespace Chain

def tokens (chain : Chain) : List Token :=
  chain.members.tokens ++ chain.calls.tokens

def phrase (chain : Chain) (start : Phrase) : Phrase :=
  chain.calls.phrase (chain.members.phrase start)

/-- The empty chain. -/
def done : Chain :=
  ⟨.done, .done⟩

end Chain

/-- The chain behind the first part of a sum, and the operands after it. -/
structure Spine where
  chain : Chain
  products : ProductTail
  sums : SumTail

namespace Spine

def tokens (spine : Spine) : List Token :=
  spine.chain.tokens ++ (spine.products.tokens ++ spine.sums.tokens)

def phrase (spine : Spine) (start : Phrase) : Phrase :=
  spine.sums.phrase (spine.products.phrase (spine.chain.phrase start))

/-- The empty spine. -/
def done : Spine :=
  ⟨.done, .done, .done⟩

theorem tokens_append (spine : Spine) (after : List Token) :
    spine.tokens ++ after =
      spine.chain.tokens ++ (spine.products.tokens ++ (spine.sums.tokens ++ after)) := by
  rw [tokens, List.append_assoc, List.append_assoc]

end Spine

section

variable {after : List Token} {rest : List Word}

theorem MemberTail.eq_done (tail : MemberTail) (remains : words (tail.tokens ++ after) = rest)
    (stops : continuesMember (firstKind rest) = false) : tail = .done := by
  subst rest
  cases tail with
  | done => rfl
  | named dot name others => exact absurd dot.ofKind (ne_of_continues stops rfl)
  | computed opening property closing others =>
      exact absurd opening.ofKind (ne_of_continues stops rfl)

theorem CallTail.eq_done (tail : CallTail) (remains : words (tail.tokens ++ after) = rest)
    (stops : continuesCall (firstKind rest) = false) : tail = .done := by
  subst rest
  cases tail with
  | done => rfl
  | more list others =>
      cases list with
      | mk opening arguments closing => exact absurd opening.ofKind (ne_of_continues stops rfl)

theorem ProductTail.eq_done (tail : ProductTail) (remains : words (tail.tokens ++ after) = rest)
    (stops : continuesSum (firstKind rest) = false) : tail = .done := by
  subst rest
  cases tail with
  | done => rfl
  | more mark right others => exact absurd mark.ofKind (ne_of_continues stops rfl)

theorem SumTail.eq_done (tail : SumTail) (remains : words (tail.tokens ++ after) = rest)
    (stops : continuesSum (firstKind rest) = false) : tail = .done := by
  subst rest
  cases tail with
  | done => rfl
  | more mark right others => exact absurd mark.ofKind (ne_of_continues stops rfl)

theorem Chain.eq_done (chain : Chain) (remains : words (chain.tokens ++ after) = rest)
    (stops : continuesCall (firstKind rest) = false) : chain = .done := by
  obtain ⟨members, calls⟩ := chain
  rw [Chain.tokens, List.append_assoc] at remains
  cases members.eq_done remains (continuesMember_of_continuesCall stops)
  cases calls.eq_done remains stops
  rfl

theorem Spine.eq_done (spine : Spine) (remains : words (spine.tokens ++ after) = rest)
    (stops : continuesSum (firstKind rest) = false) : spine = .done := by
  obtain ⟨chain, products, sums⟩ := spine
  rw [Spine.tokens_append] at remains
  cases chain.eq_done remains (continuesCall_of_continuesSum stops)
  cases products.eq_done remains stops
  cases sums.eq_done remains stops
  rfl

end

/-! ## Recovered expressions -/

/-- A derivation of a call whose tokens begin with the words of a phrase takes them as its first
part, which is not an object literal and, if it is a call, leaves no member access. -/
def RecoveredInCall (phrase : Phrase) : Prop :=
  ∀ (operand : Operand) (chain : Chain) (after : List Token) (rest : List Word),
    words (operand.tokens ++ (chain.tokens ++ after)) = phrase.words ++ rest → StopsCall after →
      phrase.WellPlaced ∧ phrase.kind ≠ .objectLiteral ∧
        ∃ (start : Phrase) (left : Chain), start.bare = phrase.shown ∧
          (phrase.kind = .call → left.members = .done) ∧
          left.phrase start = chain.phrase operand.phrase ∧ words (left.tokens ++ after) = rest

/-- An object literal whose tokens begin with the words of a phrase is that phrase, or the phrase
continues behind it. -/
def RecoveredInLiteral (phrase : Phrase) : Prop :=
  ∀ (opening : Terminal .openBrace) (entries : Entries) (closing : Terminal .closeBrace)
    (after : List Token) (rest : List Word),
    words ((ObjectLiteral.literal opening entries closing).tokens ++ after) =
      phrase.words ++ rest →
      phrase.kind = .objectLiteral ∧ phrase.WellPlaced ∧
          (ObjectLiteral.literal opening entries closing).phrase.bare = phrase.shown ∧
          words after = rest ∨
        phrase.kind ≠ .objectLiteral ∧ continuesCall (nextKind after) = true

/-- An expression is recovered wherever its words stand. -/
structure Recovered (phrase : Phrase) : Prop where
  inCall : RecoveredInCall phrase
  inLiteral : RecoveredInLiteral phrase

/-! ## Recovery in sums -/

section

variable {phrase left right : Phrase} {operator : Operator} {after : List Token} {rest : List Word}

/-- A call whose tokens begin with the words of a phrase takes them as its first part. -/
theorem Call.recovered (recovered : RecoveredInCall phrase) (call : Call)
    (same : words (call.tokens ++ after) = phrase.words ++ rest) (stops : StopsCall after) :
    (phrase.WellPlaced ∧ phrase.kind ≠ .objectLiteral) ∧
      ∃ (start : Phrase) (chain : Chain), start.bare = phrase.shown ∧
        chain.phrase start = call.phrase ∧ words (chain.tokens ++ after) = rest := by
  obtain ⟨⟨operand, members⟩, calls⟩ := call
  have regrouped : words (operand.tokens ++ ((Chain.mk members calls).tokens ++ after)) =
      phrase.words ++ rest := by
    rw [← same]
    simp only [Call.tokens, Member.tokens, Chain.tokens, List.append_assoc]
  obtain ⟨placed, notLiteral, start, chain, startSame, _, wholeSame, remains⟩ :=
    recovered operand ⟨members, calls⟩ _ _ regrouped stops
  exact ⟨⟨placed, notLiteral⟩, start, chain, startSame, wholeSame, remains⟩

/-- A sum whose tokens begin with the words of a phrase takes them as its first part. -/
theorem Sum.recovered (recovered : RecoveredInCall phrase) (sum : Sum)
    (same : words (sum.tokens ++ after) = phrase.words ++ rest) (stops : StopsSum after) :
    (phrase.WellPlaced ∧ phrase.kind ≠ .objectLiteral) ∧
      ∃ (start : Phrase) (spine : Spine), start.bare = phrase.shown ∧
        spine.phrase start = sum.phrase ∧ words (spine.tokens ++ after) = rest := by
  obtain ⟨⟨call, products⟩, sums⟩ := sum
  rw [Sum.tokens, Product.tokens, List.append_assoc, List.append_assoc] at same
  obtain ⟨placed, start, chain, startSame, wholeSame, remains⟩ :=
    call.recovered recovered same (products.stopsCall (sums.stopsProduct stops))
  refine ⟨placed, start, ⟨chain, products, sums⟩, startSame, ?_, ?_⟩
  · rw [Spine.phrase, wholeSame]
    rfl
  · rw [Spine.tokens_append]
    exact remains

/-- A sum whose tokens begin with the words of a phrase is that phrase, if nothing that could
continue it follows them. -/
theorem Sum.recovered_alone (recovered : RecoveredInCall phrase) (sum : Sum)
    (same : words (sum.tokens ++ after) = phrase.words ++ rest) (stops : StopsSum after)
    (quiet : continuesSum (firstKind rest) = false) :
    (phrase.WellPlaced ∧ phrase.kind ≠ .objectLiteral) ∧ sum.phrase.bare = phrase.shown ∧
      words after = rest := by
  obtain ⟨placed, start, spine, startSame, wholeSame, remains⟩ :=
    sum.recovered recovered same stops
  cases spine.eq_done remains quiet
  refine ⟨placed, ?_, remains⟩
  rw [← wholeSame]
  exact startSame

/-- A sum whose tokens begin with two operands and an operator between them is their binary
expression. -/
theorem Sum.recovered_binary (leftRecovered : RecoveredInCall left)
    (rightRecovered : RecoveredInCall right) (sum : Sum)
    (same : words (sum.tokens ++ after) =
      left.words ++ ofOperator operator :: (right.words ++ rest))
    (stops : StopsSum after) (quiet : continuesSum (firstKind rest) = false) :
    (left.WellPlaced ∧ left.kind ≠ .objectLiteral) ∧
      (right.WellPlaced ∧ right.kind ≠ .objectLiteral) ∧
      sum.phrase.bare = .binary left.shown operator right.shown (Span.empty 0) ∧
      words after = rest := by
  obtain ⟨placed, start, ⟨chain, products, sums⟩, startSame, wholeSame, remains⟩ :=
    sum.recovered leftRecovered same stops
  rw [Spine.tokens_append] at remains
  have atOperator : continuesCall (firstKind (ofOperator operator :: (right.words ++ rest))) =
      false := rfl
  cases chain.eq_done remains atOperator
  refine ⟨placed, ?_⟩
  rw [← wholeSame, ← startSame]
  cases products with
  | more mark call others =>
      change words (mark.token :: (call.tokens ++ others.tokens ++ (sums.tokens ++ after))) = _
        at remains
      rw [List.append_assoc] at remains
      have split := List.cons.inj remains
      obtain ⟨rightPlaced, rightStart, rightChain, rightSame, callSame, rightRemains⟩ :=
        call.recovered rightRecovered split.2 (others.stopsCall (sums.stopsProduct stops))
      rw [← Spine.tokens_append ⟨rightChain, others, sums⟩] at rightRemains
      cases Spine.eq_done _ rightRemains quiet
      refine ⟨rightPlaced, ?_, rightRemains⟩
      have callSame : rightStart = call.phrase := callSame
      rw [← rightSame, callSame, ← mark.operator_of_word split.1]
      rfl
  | done =>
      cases sums with
      | more mark product others =>
          obtain ⟨call, products⟩ := product
          change words (mark.token :: (call.tokens ++ products.tokens ++ others.tokens ++ after)) = _
            at remains
          rw [List.append_assoc, List.append_assoc] at remains
          have split := List.cons.inj remains
          obtain ⟨rightPlaced, rightStart, rightChain, rightSame, callSame, rightRemains⟩ :=
            call.recovered rightRecovered split.2
              (products.stopsCall (others.stopsProduct stops))
          rw [← Spine.tokens_append ⟨rightChain, products, others⟩] at rightRemains
          cases Spine.eq_done _ rightRemains quiet
          refine ⟨rightPlaced, ?_, rightRemains⟩
          have callSame : rightStart = call.phrase := callSame
          rw [← rightSame, callSame, ← mark.operator_of_word split.1]
          rfl
      | done =>
          have atOperator : words after = ofOperator operator :: (right.words ++ rest) := remains
          cases after with
          | nil => cases atOperator
          | cons token after =>
              obtain ⟨tokenSame, _⟩ := List.cons.inj atOperator
              have isOperator := nextOperator?_cons (congrArg Word.kind tokenSame) after
              rw [stops.2, show token.text = operator.symbol from congrArg Word.text tokenSame,
                Operator.ofSymbol?_symbol] at isOperator
              cases isOperator

end

end NanoScript.Grammar
