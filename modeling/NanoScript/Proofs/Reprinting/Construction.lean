import NanoScript.Proofs.Phrase.Bare
import NanoScript.Proofs.Reprinting.Recovery

/-!
Contract: the words of a phrase that is read back have a derivation that stands for it.

Owns:
- derivable expressions: their words are derived as the first part of a call, or as an object;
- the derivations of lists of arguments and entries;
- the derivations of statements and of lists of statements.
-/

namespace NanoScript.Grammar

open Reading Token Word

/-! ## Tokens with given words -/

theorem exists_of_words_eq_cons {tokens : List Token} {word : Word} {others : List Word}
    (same : words tokens = word :: others) :
    ∃ token rest, tokens = token :: rest ∧ token.word = word ∧ words rest = others :=
  List.map_eq_cons_iff.1 same

theorem exists_of_words_eq_append {tokens : List Token} {left right : List Word}
    (same : words tokens = left ++ right) :
    ∃ before after, tokens = before ++ after ∧ words before = left ∧ words after = right :=
  List.map_eq_append_iff.1 same

theorem exists_of_words_eq_singleton {tokens : List Token} {word : Word}
    (same : words tokens = [word]) : ∃ token, tokens = [token] ∧ token.word = word := by
  obtain ⟨token, rest, rfl, tokenSame, restSame⟩ := exists_of_words_eq_cons same
  cases List.map_eq_nil_iff.1 restSame
  exact ⟨token, rfl, tokenSame⟩

/-! ## Derivable expressions -/

/-- Tokens with the words of a phrase, and a chain that may stand behind it, derive a call. -/
def DerivableInCall (phrase : Phrase) : Prop :=
  ∀ (tokens : List Token) (left : Chain), words tokens = phrase.words →
    (phrase.kind = .call → left.members = .done) →
      ∃ (operand : Operand) (chain : Chain) (start : Phrase),
        operand.tokens ++ chain.tokens = tokens ++ left.tokens ∧ start.bare = phrase.bare ∧
          chain.phrase operand.phrase = left.phrase start

/-- Tokens with the words of a phrase are derived as an expression, in which an object literal is
derived as such. -/
def DerivableAsObject (phrase : Phrase) : Prop :=
  ∀ tokens : List Token, words tokens = phrase.words →
    ∃ whole : ObjectLiteral, whole.tokens = tokens ∧ whole.phrase.bare = phrase.bare ∧
      (phrase.kind = .objectLiteral → whole.IsLiteral)

/-- An expression is derivable from its words, as part of a call unless it is an object literal. -/
structure Derivable (phrase : Phrase) : Prop where
  inCall : phrase.kind ≠ .objectLiteral → DerivableInCall phrase
  asObject : DerivableAsObject phrase

section

variable {phrase left right target value : Phrase}

theorem DerivableInCall.exists_call (derivable : DerivableInCall phrase) {tokens : List Token}
    (same : words tokens = phrase.words) :
    ∃ call : Call, call.tokens = tokens ∧ call.phrase.bare = phrase.bare := by
  obtain ⟨operand, ⟨members, calls⟩, start, tokensSame, startSame, phraseSame⟩ :=
    derivable tokens .done same fun _ => rfl
  refine ⟨.mk (.mk operand members) calls, ?_, ?_⟩
  · rw [Call.tokens, Member.tokens, List.append_assoc]
    exact tokensSame.trans (List.append_nil tokens)
  · change (Chain.phrase ⟨members, calls⟩ operand.phrase).bare = phrase.bare
    rw [phraseSame]
    exact startSame

theorem Derivable.of_inCall (notLiteral : phrase.kind ≠ .objectLiteral)
    (derivable : DerivableInCall phrase) : Derivable phrase := by
  refine ⟨fun _ => derivable, ?_⟩
  intro tokens same
  obtain ⟨call, tokensSame, phraseSame⟩ := derivable.exists_call same
  refine ⟨.sum (.mk (.mk call .done) .done), ?_, phraseSame,
    fun isLiteral => absurd isLiteral notLiteral⟩
  change call.tokens ++ [] ++ [] = tokens
  rw [List.append_nil, List.append_nil, tokensSame]

/-- A phrase whose words are derived as an operand is derivable. -/
theorem Derivable.of_operand (notLiteral : phrase.kind ≠ .objectLiteral)
    (operands : ∀ tokens, words tokens = phrase.words →
      ∃ operand : Operand, operand.tokens = tokens ∧ operand.phrase.bare = phrase.bare) :
    Derivable phrase := by
  refine .of_inCall notLiteral ?_
  intro tokens left same _
  obtain ⟨operand, tokensSame, phraseSame⟩ := operands tokens same
  exact ⟨operand, left, operand.phrase, by rw [tokensSame], phraseSame, rfl⟩

theorem Derivable.exists_expression (derivable : Derivable phrase) {tokens : List Token}
    (same : words tokens = phrase.words) :
    ∃ expression : Expression, expression.tokens = tokens ∧ expression.phrase.bare = phrase.bare ∧
      (phrase.kind = .objectLiteral → expression.EndsInLiteral) := by
  obtain ⟨whole, tokensSame, phraseSame, isLiteral⟩ := derivable.asObject tokens same
  exact ⟨.plain whole, tokensSame, phraseSame, isLiteral⟩

/-! ## One form of expressions at a time -/

theorem derivable_identifier (name : String) (span : Span) : Derivable (.identifier name span) := by
  refine .of_operand (by simp [Phrase.kind]) ?_
  intro tokens same
  obtain ⟨token, rfl, tokenSame⟩ := exists_of_words_eq_singleton same
  have text : token.text = name := congrArg Word.text tokenSame
  exact ⟨.name ⟨token, congrArg Word.kind tokenSame⟩, rfl,
    congrArg (Phrase.identifier · (Span.empty 0)) text⟩

theorem derivable_numericLiteral {value : Number} (nonnegative : value.isNegative = false)
    (finite : value.isFinite = true) (span : Span) : Derivable (.numericLiteral value span) := by
  refine .of_operand (by simp [Phrase.kind]) ?_
  intro tokens same
  obtain ⟨token, rfl, tokenSame⟩ := exists_of_words_eq_singleton same
  have text : token.text = value.text := congrArg Word.text tokenSame
  have ofKind : token.kind = .number := by
    have kinds : token.kind = if value.isFinite then .number else .identifier :=
      congrArg Word.kind tokenSame
    rw [kinds, finite]
    rfl
  obtain ⟨_, _, _, reads⟩ := Number.exists_plain_text nonnegative finite
  exact ⟨.number ⟨token, value, ofKind, by rw [text, reads]⟩, rfl, rfl⟩

/-- Two calls with an operator between them are a sum. -/
theorem exists_sum_of_operands (leftCall rightCall : Call) {token : Token} {operator : Operator}
    (tokenSame : token.word = ofOperator operator) :
    ∃ sum : Sum, sum.tokens = leftCall.tokens ++ token :: rightCall.tokens ∧
      sum.phrase = .ofOperands leftCall.phrase operator rightCall.phrase := by
  have ofKind : token.kind = .binaryOperator := congrArg Word.kind tokenSame
  have text : token.text = operator.symbol := congrArg Word.text tokenSame
  have ofSymbol : Operator.ofSymbol? token.text = some operator := by
    rw [text, Operator.ofSymbol?_symbol]
  cases additive : operator.isAdditive with
  | true =>
      refine ⟨.mk (.mk leftCall .done)
        (.more ⟨token, operator, ofKind, ofSymbol, additive⟩ (.mk rightCall .done) .done), ?_, rfl⟩
      simp [Sum.tokens, Product.tokens, ProductTail.tokens, SumTail.tokens]
  | false =>
      have multiplicative : operator.isMultiplicative = true := by
        unfold Operator.isMultiplicative
        rw [additive]
        rfl
      refine ⟨.mk (.mk leftCall
        (.more ⟨token, operator, ofKind, ofSymbol, multiplicative⟩ rightCall .done)) .done, ?_, rfl⟩
      simp [Sum.tokens, Product.tokens, ProductTail.tokens, SumTail.tokens]

theorem derivable_binary (leftDerivable : DerivableInCall left)
    (rightDerivable : DerivableInCall right) (operator : Operator) (span : Span) :
    Derivable (.binary left operator right span) := by
  refine .of_operand (by simp [Phrase.kind]) ?_
  intro tokens same
  obtain ⟨opening, inner, rfl, openingSame, innerSame⟩ := exists_of_words_eq_cons same
  obtain ⟨leftTokens, behind, rfl, leftSame, behindSame⟩ := exists_of_words_eq_append innerSame
  obtain ⟨mark, behind, rfl, markSame, behindSame⟩ := exists_of_words_eq_cons behindSame
  obtain ⟨rightTokens, behind, rfl, rightSame, behindSame⟩ := exists_of_words_eq_append behindSame
  obtain ⟨closing, rfl, closingSame⟩ := exists_of_words_eq_singleton behindSame
  obtain ⟨leftCall, rfl, leftPhrase⟩ := leftDerivable.exists_call leftSame
  obtain ⟨rightCall, rfl, rightPhrase⟩ := rightDerivable.exists_call rightSame
  obtain ⟨sum, sumTokens, sumPhrase⟩ := exists_sum_of_operands leftCall rightCall markSame
  refine ⟨.group ⟨opening, congrArg Word.kind openingSame⟩ (.plain (.sum sum))
    ⟨closing, congrArg Word.kind closingSame⟩, ?_, ?_⟩
  · change opening :: (sum.tokens ++ [closing]) = _
    rw [sumTokens, List.append_assoc, List.cons_append]
  · change sum.phrase.bare = _
    rw [sumPhrase]
    exact congrArg₂ (Phrase.binary · operator · (Span.empty 0)) leftPhrase rightPhrase

theorem derivable_assignment (targetDerivable : Derivable target)
    (valueDerivable : Derivable value) (span : Span) :
    Derivable (.assignment target value span) := by
  refine .of_operand (by simp [Phrase.kind]) ?_
  intro tokens same
  obtain ⟨opening, inner, rfl, openingSame, innerSame⟩ := exists_of_words_eq_cons same
  obtain ⟨targetTokens, behind, rfl, targetSame, behindSame⟩ := exists_of_words_eq_append innerSame
  obtain ⟨equals, behind, rfl, equalsSame, behindSame⟩ := exists_of_words_eq_cons behindSame
  obtain ⟨valueTokens, behind, rfl, valueSame, behindSame⟩ := exists_of_words_eq_append behindSame
  obtain ⟨closing, rfl, closingSame⟩ := exists_of_words_eq_singleton behindSame
  obtain ⟨whole, rfl, targetPhrase, _⟩ := targetDerivable.asObject _ targetSame
  obtain ⟨assigned, rfl, valuePhrase, _⟩ := valueDerivable.exists_expression valueSame
  refine ⟨.group ⟨opening, congrArg Word.kind openingSame⟩
    (.assignment whole ⟨equals, congrArg Word.kind equalsSame⟩ assigned)
    ⟨closing, congrArg Word.kind closingSame⟩, ?_, ?_⟩
  · change opening :: (whole.tokens ++ equals :: assigned.tokens ++ [closing]) = _
    rw [List.append_assoc, List.cons_append]
  · exact congrArg₂ (Phrase.assignment · · (Span.empty 0)) targetPhrase valuePhrase

/-! ## Lists -/

/-- The expressions behind the first one in a list of arguments. -/
theorem exists_derived_argumentsTail {phrases : List Phrase}
    (derivable : ∀ argument ∈ phrases, Derivable argument) {tokens : List Token}
    (same : words tokens = (phrases.map Phrase.words).flatMap (ofMark ',' :: ·)) :
    ∃ tail : ArgumentsTail, tail.tokens = tokens ∧
      tail.phrases.map Phrase.bare = phrases.map Phrase.bare := by
  induction phrases generalizing tokens with
  | nil =>
      cases List.map_eq_nil_iff.1 same
      exact ⟨.done, rfl, rfl⟩
  | cons phrase others inductionHypothesis =>
      rw [List.map_cons, List.flatMap_cons] at same
      obtain ⟨comma, inner, rfl, commaSame, innerSame⟩ := exists_of_words_eq_cons same
      obtain ⟨before, behind, rfl, beforeSame, behindSame⟩ := exists_of_words_eq_append innerSame
      obtain ⟨argument, rfl, argumentPhrase, _⟩ :=
        (derivable phrase List.mem_cons_self).exists_expression beforeSame
      obtain ⟨tail, rfl, tailPhrases⟩ := inductionHypothesis
        (fun argument member => derivable argument (List.mem_cons_of_mem phrase member)) behindSame
      refine ⟨.more ⟨comma, congrArg Word.kind commaSame⟩ argument tail, rfl, ?_⟩
      rw [ArgumentsTail.phrases, List.map_cons, List.map_cons, argumentPhrase, tailPhrases]

/-- Expressions with commas between them, in parentheses. -/
theorem exists_derived_argumentList {phrases : List Phrase}
    (derivable : ∀ argument ∈ phrases, Derivable argument) {opening closing : Token}
    (openingSame : opening.word = ofMark '(') (closingSame : closing.word = ofMark ')')
    {tokens : List Token} (same : words tokens = commaDivided (phrases.map Phrase.words)) :
    ∃ list : ArgumentList, list.tokens = opening :: (tokens ++ [closing]) ∧
      list.phrases.map Phrase.bare = phrases.map Phrase.bare := by
  cases phrases with
  | nil =>
      cases List.map_eq_nil_iff.1 same
      exact ⟨.mk ⟨opening, congrArg Word.kind openingSame⟩ .none
        ⟨closing, congrArg Word.kind closingSame⟩, rfl, rfl⟩
  | cons phrase others =>
      have split := commaDivided_append phrase.words (others.map Phrase.words) []
      rw [List.append_nil, List.append_nil] at split
      rw [List.map_cons, split] at same
      obtain ⟨before, behind, rfl, beforeSame, behindSame⟩ := exists_of_words_eq_append same
      obtain ⟨first, rfl, firstPhrase, _⟩ :=
        (derivable phrase List.mem_cons_self).exists_expression beforeSame
      obtain ⟨tail, rfl, tailPhrases⟩ := exists_derived_argumentsTail
        (fun argument member => derivable argument (List.mem_cons_of_mem phrase member)) behindSame
      refine ⟨.mk ⟨opening, congrArg Word.kind openingSame⟩ (.some first tail)
        ⟨closing, congrArg Word.kind closingSame⟩, rfl, ?_⟩
      rw [ArgumentList.phrases, Arguments.phrases, List.map_cons, List.map_cons, firstPhrase,
        tailPhrases]

theorem exists_derived_entry {entry : NanoScript.Entry}
    (derivable : ∀ value, entry.value? = some value → Derivable value) {tokens : List Token}
    (same : words tokens = entry.words) :
    ∃ derivation : Entry, derivation.tokens = tokens ∧ derivation.phrase.bare = entry.bare := by
  cases entry with
  | shorthand key span =>
      obtain ⟨token, rfl, tokenSame⟩ := exists_of_words_eq_singleton same
      have text : token.text = key := congrArg Word.text tokenSame
      exact ⟨.shorthand ⟨token, congrArg Word.kind tokenSame⟩, rfl,
        congrArg (NanoScript.Entry.shorthand · (Span.empty 0)) text⟩
  | keyed key value span =>
      obtain ⟨token, behind, rfl, tokenSame, behindSame⟩ := exists_of_words_eq_cons same
      obtain ⟨colon, inner, rfl, colonSame, innerSame⟩ := exists_of_words_eq_cons behindSame
      obtain ⟨expression, rfl, valuePhrase, _⟩ := (derivable value rfl).exists_expression innerSame
      have text : token.text = key := congrArg Word.text tokenSame
      exact ⟨.keyed ⟨token, congrArg Word.kind tokenSame⟩ ⟨colon, congrArg Word.kind colonSame⟩
        expression, rfl, congrArg₂ (NanoScript.Entry.keyed · · (Span.empty 0)) text valuePhrase⟩

theorem exists_derived_entries {entries : List NanoScript.Entry}
    (derivable : ∀ entry ∈ entries, ∀ value, entry.value? = some value → Derivable value)
    {tokens : List Token}
    (same : words tokens = commaDivided (entries.map NanoScript.Entry.words)) :
    ∃ derivation : Entries, derivation.tokens = tokens ∧
      derivation.phrases.map NanoScript.Entry.bare = entries.map NanoScript.Entry.bare := by
  induction entries generalizing tokens with
  | nil =>
      cases List.map_eq_nil_iff.1 same
      exact ⟨.none, rfl, rfl⟩
  | cons entry others inductionHypothesis =>
      have firstDerivable := derivable entry List.mem_cons_self
      cases others with
      | nil =>
          rw [List.map_singleton, commaDivided_singleton] at same
          obtain ⟨derivation, rfl, phraseSame⟩ := exists_derived_entry firstDerivable same
          exact ⟨.last derivation, rfl, congrArg (· :: []) phraseSame⟩
      | cons second others =>
          rw [List.map_cons, List.map_cons, commaDivided_cons_cons] at same
          obtain ⟨before, behind, rfl, beforeSame, behindSame⟩ := exists_of_words_eq_append same
          obtain ⟨comma, inner, rfl, commaSame, innerSame⟩ := exists_of_words_eq_cons behindSame
          obtain ⟨derivation, rfl, phraseSame⟩ := exists_derived_entry firstDerivable beforeSame
          obtain ⟨tail, rfl, tailSame⟩ := inductionHypothesis
            (fun entry member => derivable entry (List.mem_cons_of_mem _ member)) innerSame
          refine ⟨.more derivation ⟨comma, congrArg Word.kind commaSame⟩ tail, rfl, ?_⟩
          rw [Entries.phrases, List.map_cons, List.map_cons, phraseSame, tailSame]

/-! ## Object literals, calls and member accesses -/

theorem derivable_objectLiteral {entries : List NanoScript.Entry}
    (derivable : ∀ entry ∈ entries, ∀ value, entry.value? = some value → Derivable value)
    (span : Span) : Derivable (.objectLiteral entries span) := by
  refine ⟨fun notLiteral => absurd rfl notLiteral, ?_⟩
  intro tokens same
  rw [Phrase.words_objectLiteral] at same
  obtain ⟨opening, inner, rfl, openingSame, innerSame⟩ := exists_of_words_eq_cons same
  obtain ⟨listed, behind, rfl, listedSame, behindSame⟩ := exists_of_words_eq_append innerSame
  obtain ⟨closing, rfl, closingSame⟩ := exists_of_words_eq_singleton behindSame
  obtain ⟨derivation, rfl, phrasesSame⟩ := exists_derived_entries derivable listedSame
  refine ⟨.literal ⟨opening, congrArg Word.kind openingSame⟩ derivation
    ⟨closing, congrArg Word.kind closingSame⟩, rfl, ?_, fun _ => trivial⟩
  rw [ObjectLiteral.phrase, Phrase.bare, Phrase.rewritten_objectLiteral,
    Phrase.rewritten_objectLiteral]
  exact congrArg (Phrase.objectLiteral · (Span.empty 0)) phrasesSame

theorem derivable_call {callee : Phrase} {arguments : List Phrase}
    (calleeDerivable : DerivableInCall callee)
    (argumentsDerivable : ∀ argument ∈ arguments, Derivable argument) (span : Span) :
    Derivable (.call callee arguments span) := by
  refine .of_inCall (by simp [Phrase.kind]) ?_
  rintro tokens ⟨members, calls⟩ same noMembers
  cases noMembers rfl
  rw [Phrase.words_call] at same
  obtain ⟨before, behind, rfl, beforeSame, behindSame⟩ := exists_of_words_eq_append same
  obtain ⟨opening, inner, rfl, openingSame, innerSame⟩ := exists_of_words_eq_cons behindSame
  obtain ⟨listed, behind, rfl, listedSame, behindSame⟩ := exists_of_words_eq_append innerSame
  obtain ⟨closing, rfl, closingSame⟩ := exists_of_words_eq_singleton behindSame
  obtain ⟨list, listTokens, listPhrases⟩ :=
    exists_derived_argumentList argumentsDerivable openingSame closingSame listedSame
  obtain ⟨operand, chain, start, tokensSame, startSame, phraseSame⟩ :=
    calleeDerivable before ⟨.done, .more list calls⟩ beforeSame fun _ => rfl
  refine ⟨operand, chain, .call start list.phrases (start.span.merge list.closingSpan), ?_, ?_,
    phraseSame⟩
  · rw [tokensSame, ← listTokens]
    simp only [Chain.tokens, MemberTail.tokens, CallTail.tokens, List.nil_append,
      List.append_assoc]
  · rw [Phrase.bare, Phrase.rewritten_call, Phrase.rewritten_call]
    exact congrArg₂ (Phrase.call · · (Span.empty 0)) startSame listPhrases

theorem derivable_named {object : Phrase} (derivable : DerivableInCall object)
    (notCall : object.kind ≠ .call) (name : String) (nameSpan span : Span) :
    Derivable (.member object (.identifier name nameSpan) false span) := by
  refine .of_inCall (by simp [Phrase.kind]) ?_
  rintro tokens ⟨members, calls⟩ same _
  obtain ⟨before, behind, rfl, beforeSame, behindSame⟩ := exists_of_words_eq_append same
  obtain ⟨dot, inner, rfl, dotSame, innerSame⟩ := exists_of_words_eq_cons behindSame
  obtain ⟨token, rfl, tokenSame⟩ := exists_of_words_eq_singleton innerSame
  have text : token.text = name := congrArg Word.text tokenSame
  obtain ⟨operand, chain, start, tokensSame, startSame, phraseSame⟩ :=
    derivable before ⟨.named ⟨dot, congrArg Word.kind dotSame⟩
      ⟨token, congrArg Word.kind tokenSame⟩ members, calls⟩ beforeSame
      fun isCall => absurd isCall notCall
  refine ⟨operand, chain, .member start (.identifier token.text token.span) false
    (start.span.merge token.span), ?_, ?_, phraseSame⟩
  · rw [tokensSame]
    simp only [Chain.tokens, MemberTail.tokens, List.cons_append, List.nil_append,
      List.append_assoc]
  · exact congrArg₂ (fun object name => Phrase.member object
      (.identifier name (Span.empty 0)) false (Span.empty 0)) startSame text

theorem derivable_computed {object property : Phrase} (derivable : DerivableInCall object)
    (notCall : object.kind ≠ .call) (propertyDerivable : Derivable property) (span : Span) :
    Derivable (.member object property true span) := by
  refine .of_inCall (by simp [Phrase.kind]) ?_
  rintro tokens ⟨members, calls⟩ same _
  obtain ⟨before, behind, rfl, beforeSame, behindSame⟩ := exists_of_words_eq_append same
  obtain ⟨opening, inner, rfl, openingSame, innerSame⟩ := exists_of_words_eq_cons behindSame
  obtain ⟨middle, behind, rfl, middleSame, behindSame⟩ := exists_of_words_eq_append innerSame
  obtain ⟨closing, rfl, closingSame⟩ := exists_of_words_eq_singleton behindSame
  obtain ⟨derived, rfl, propertyPhrase, _⟩ := propertyDerivable.exists_expression middleSame
  obtain ⟨operand, chain, start, tokensSame, startSame, phraseSame⟩ :=
    derivable before ⟨.computed ⟨opening, congrArg Word.kind openingSame⟩ derived
      ⟨closing, congrArg Word.kind closingSame⟩ members, calls⟩ beforeSame
      fun isCall => absurd isCall notCall
  refine ⟨operand, chain, .member start derived.phrase true (start.span.merge closing.span), ?_, ?_,
    phraseSame⟩
  · rw [tokensSame]
    simp only [Chain.tokens, MemberTail.tokens, List.cons_append, List.nil_append,
      List.append_assoc]
  · exact congrArg₂ (Phrase.member · · true (Span.empty 0)) startSame propertyPhrase

end

/-- The words of an expression that is read back are derivable. -/
theorem derivable_of_reprintable {phrase : Phrase} (shape : phrase.IsExpression)
    (reprintable : phrase.Reprintable) : Derivable phrase := by
  induction shape with
  | identifier _ => exact derivable_identifier _ _
  | @numericLiteral value span nonnegative _ =>
      exact derivable_numericLiteral nonnegative (reprintable.finite value span .here) span
  | @binary left right operator span _ _ leftDerivable rightDerivable =>
      obtain ⟨leftNotLiteral, rightNotLiteral⟩ := reprintable.literals _ .here
      have inLeft := leftDerivable (reprintable.part List.mem_cons_self)
      have inRight := rightDerivable (reprintable.part (List.mem_cons_of_mem _ List.mem_cons_self))
      exact derivable_binary (inLeft.inCall leftNotLiteral) (inRight.inCall rightNotLiteral)
        operator span
  | assignment _ _ targetDerivable valueDerivable =>
      have inTarget := targetDerivable (reprintable.part List.mem_cons_self)
      have inValue := valueDerivable (reprintable.part (List.mem_cons_of_mem _ List.mem_cons_self))
      exact derivable_assignment inTarget inValue _
  | objectLiteral _ _ valuesDerivable =>
      refine derivable_objectLiteral ?_ _
      intro entry member value isValue
      exact valuesDerivable entry member value isValue
        (reprintable.part (List.mem_filterMap.2 ⟨entry, member, isValue⟩))
  | call _ _ calleeDerivable argumentsDerivable =>
      have inCallee := calleeDerivable (reprintable.part List.mem_cons_self)
      refine derivable_call (inCallee.inCall (reprintable.literals _ .here)) ?_ _
      intro argument member
      exact argumentsDerivable argument member (reprintable.part (List.mem_cons_of_mem _ member))
  | named _ _ objectDerivable =>
      have inObject := objectDerivable (reprintable.part List.mem_cons_self)
      exact derivable_named (inObject.inCall (reprintable.literals _ .here))
        (reprintable.calls _ .here) _ _ _
  | computed _ _ objectDerivable propertyDerivable =>
      have inObject := objectDerivable (reprintable.part List.mem_cons_self)
      have inProperty :=
        propertyDerivable (reprintable.part (List.mem_cons_of_mem _ List.mem_cons_self))
      exact derivable_computed (inObject.inCall (reprintable.literals _ .here))
        (reprintable.calls _ .here) inProperty _

/-! ## Statements -/

/-- Tokens with the words of a phrase are derived as a statement that may stand before a parenthesis
if the phrase is a declaration or an object literal, and before every other token. -/
def DerivableAsStatement (phrase : Phrase) : Prop :=
  ∀ tokens : List Token, words tokens = phrase.words →
    ∃ statement : Statement, statement.tokens = tokens ∧ statement.phrase.bare = phrase.bare ∧
      statement.Separated ∧
      ∀ next, (next = .openParen → phrase.isDeclaration = false → phrase.kind = .objectLiteral) →
        statement.MayPrecede next

theorem derivableAsStatement_of_isExpression {phrase : Phrase} (shape : phrase.IsExpression)
    (derivable : Derivable phrase) : DerivableAsStatement phrase := by
  intro tokens same
  obtain ⟨expression, rfl, phraseSame, isLiteral⟩ := derivable.exists_expression same
  have notDeclaration : phrase.isDeclaration = false := by
    cases shape <;> rfl
  refine ⟨.unterminated expression, rfl, phraseSame, trivial, ?_⟩
  intro next may atParen
  exact isLiteral (may atParen notDeclaration)

theorem derivableAsStatement_declaration (name : String) (span : Span) :
    DerivableAsStatement (.variableDeclaration name none false span) := by
  intro tokens same
  obtain ⟨keyword, behind, rfl, keywordSame, behindSame⟩ := exists_of_words_eq_cons same
  obtain ⟨token, behind, rfl, tokenSame, behindSame⟩ := exists_of_words_eq_cons behindSame
  obtain ⟨semicolon, rfl, semicolonSame⟩ := exists_of_words_eq_singleton behindSame
  have text : token.text = name := congrArg Word.text tokenSame
  exact ⟨.declaration ⟨keyword, congrArg Word.kind keywordSame⟩
    ⟨token, congrArg Word.kind tokenSame⟩ ⟨semicolon, congrArg Word.kind semicolonSame⟩, rfl,
    congrArg (Phrase.variableDeclaration · none false (Span.empty 0)) text, trivial,
    fun _ _ => trivial⟩

theorem derivableAsStatement_initialized (name : String) {value : Phrase}
    (derivable : Derivable value) (constant : Bool) (span : Span) :
    DerivableAsStatement (.variableDeclaration name (some value) constant span) := by
  intro tokens same
  obtain ⟨keyword, behind, rfl, keywordSame, behindSame⟩ := exists_of_words_eq_cons same
  obtain ⟨token, behind, rfl, tokenSame, behindSame⟩ := exists_of_words_eq_cons behindSame
  obtain ⟨equals, behind, rfl, equalsSame, behindSame⟩ := exists_of_words_eq_cons behindSame
  obtain ⟨inner, behind, rfl, innerSame, behindSame⟩ := exists_of_words_eq_append behindSame
  obtain ⟨semicolon, rfl, semicolonSame⟩ := exists_of_words_eq_singleton behindSame
  obtain ⟨expression, rfl, valuePhrase, _⟩ := derivable.exists_expression innerSame
  have text : token.text = name := congrArg Word.text tokenSame
  have ofKind : keyword.kind = declarationKeyword constant := by
    have kinds := congrArg Word.kind keywordSame
    cases constant <;> exact kinds
  refine ⟨.initialized constant ⟨keyword, ofKind⟩ ⟨token, congrArg Word.kind tokenSame⟩
    ⟨equals, congrArg Word.kind equalsSame⟩ expression
    ⟨semicolon, congrArg Word.kind semicolonSame⟩, rfl, ?_, trivial, fun _ _ => trivial⟩
  exact congrArg₂ (fun name value => Phrase.variableDeclaration name (some value) constant
    (Span.empty 0)) text valuePhrase

/-- Statements of which every one may stand before the next one. -/
theorem exists_separated_statements {phrases : List Phrase}
    (shapes : ∀ statement ∈ phrases, statement.IsStatement)
    (derivable : ∀ statement ∈ phrases, DerivableAsStatement statement)
    (chain : phrases.IsChain Phrase.MayStandBefore) {tokens : List Token}
    (same : words tokens = (phrases.map Phrase.words).flatten) :
    ∃ derivation : Statements, derivation.tokens = tokens ∧
      derivation.phrases.map Phrase.bare = phrases.map Phrase.bare ∧ derivation.Separated := by
  induction phrases generalizing tokens with
  | nil =>
      cases List.map_eq_nil_iff.1 same
      exact ⟨.none, rfl, rfl, trivial⟩
  | cons phrase others inductionHypothesis =>
      rw [List.map_cons, List.flatten_cons] at same
      obtain ⟨before, behind, rfl, beforeSame, behindSame⟩ := exists_of_words_eq_append same
      obtain ⟨mayStand, othersChain⟩ := List.isChain_cons.1 chain
      obtain ⟨statement, rfl, phraseSame, separated, mayPrecede⟩ :=
        derivable phrase List.mem_cons_self before beforeSame
      obtain ⟨rest, rfl, restSame, restSeparated⟩ := inductionHypothesis
        (fun statement member => shapes statement (List.mem_cons_of_mem phrase member))
        (fun statement member => derivable statement (List.mem_cons_of_mem phrase member))
        othersChain behindSame
      refine ⟨.more statement rest, rfl, ?_, separated, ?_, restSeparated⟩
      · rw [Statements.phrases, List.map_cons, List.map_cons, phraseSame, restSame]
      · refine mayPrecede _ ?_
        intro atParen isExpression
        rw [nextKind_eq_firstKind, behindSame] at atParen
        cases others with
        | nil => cases atParen
        | cons second others =>
            have secondShape := shapes second (List.mem_cons_of_mem _ List.mem_cons_self)
            have opens := (secondShape.firstKind_append _).2.2 atParen
            by_contra notLiteral
            rw [mayStand second rfl isExpression notLiteral] at opens
            cases opens

/-- Names with commas between them, in parentheses. -/
theorem exists_parameterList {parameters : List String} {opening closing : Token}
    (openingSame : opening.word = ofMark '(') (closingSame : closing.word = ofMark ')')
    {tokens : List Token}
    (same : words tokens = commaDivided (parameters.map fun parameter => [ofName parameter])) :
    ∃ list : ParameterList, list.list.tokens = opening :: (tokens ++ [closing]) ∧
      list.names = parameters := by
  have asNames : (parameters.map fun parameter => [ofName parameter]) =
      (parameters.map fun parameter => Phrase.identifier parameter (Span.empty 0)).map
        Phrase.words := by
    rw [List.map_map]
    rfl
  rw [asNames] at same
  obtain ⟨list, tokensSame, phrasesSame⟩ := exists_derived_argumentList
    (by
      intro argument member
      obtain ⟨parameter, _, rfl⟩ := List.mem_map.1 member
      exact derivable_identifier parameter (Span.empty 0))
    openingSame closingSame same
  have names : list.phrases.map Phrase.name? = parameters.map some := by
    have composed := congrArg (List.map Phrase.name?) phrasesSame
    rw [List.map_map, List.map_map, List.map_map] at composed
    rw [← List.map_congr_left fun phrase _ => Phrase.name?_bare phrase]
    exact composed
  refine ⟨⟨list, ?_⟩, tokensSame, ?_⟩
  · intro phrase member
    have isName := List.mem_map_of_mem (f := Phrase.name?) member
    rw [names] at isName
    obtain ⟨name, _, same⟩ := List.mem_map.1 isName
    rw [← same]
    rfl
  · have filtered : list.phrases.filterMap Phrase.name? =
        (list.phrases.map Phrase.name?).filterMap id := by
      rw [List.filterMap_map]
      rfl
    rw [ParameterList.names, filtered, names, List.filterMap_map]
    exact List.filterMap_some

theorem derivableAsStatement_function (name : String) (parameters : List String)
    {body : List Phrase} (shapes : ∀ statement ∈ body, statement.IsStatement)
    (derivable : ∀ statement ∈ body, DerivableAsStatement statement)
    (chain : body.IsChain Phrase.MayStandBefore) (span : Span) :
    DerivableAsStatement (.functionDeclaration name parameters body span) := by
  intro tokens same
  rw [Phrase.words_functionDeclaration] at same
  obtain ⟨keyword, behind, rfl, keywordSame, behindSame⟩ := exists_of_words_eq_cons same
  obtain ⟨token, behind, rfl, tokenSame, behindSame⟩ := exists_of_words_eq_cons behindSame
  obtain ⟨opening, behind, rfl, openingSame, behindSame⟩ := exists_of_words_eq_cons behindSame
  obtain ⟨listed, behind, rfl, listedSame, behindSame⟩ := exists_of_words_eq_append behindSame
  obtain ⟨closing, behind, rfl, closingSame, behindSame⟩ := exists_of_words_eq_cons behindSame
  obtain ⟨brace, behind, rfl, braceSame, behindSame⟩ := exists_of_words_eq_cons behindSame
  obtain ⟨inner, behind, rfl, innerSame, behindSame⟩ := exists_of_words_eq_append behindSame
  obtain ⟨last, rfl, lastSame⟩ := exists_of_words_eq_singleton behindSame
  obtain ⟨list, listTokens, names⟩ := exists_parameterList openingSame closingSame listedSame
  obtain ⟨statements, rfl, bodySame, separated⟩ :=
    exists_separated_statements shapes derivable chain innerSame
  have text : token.text = name := congrArg Word.text tokenSame
  refine ⟨.function ⟨keyword, congrArg Word.kind keywordSame⟩
    ⟨token, congrArg Word.kind tokenSame⟩ list ⟨brace, congrArg Word.kind braceSame⟩ statements
    ⟨last, congrArg Word.kind lastSame⟩, ?_, ?_, separated, fun _ _ => trivial⟩
  · change keyword :: token :: (list.list.tokens ++ brace :: (statements.tokens ++ [last])) = _
    rw [listTokens]
    simp only [List.cons_append, List.append_assoc, List.nil_append]
  · rw [Statement.phrase, Phrase.bare, Phrase.rewritten_functionDeclaration,
      Phrase.rewritten_functionDeclaration, names]
    exact congrArg₂ (fun name body => Phrase.functionDeclaration name parameters body
      (Span.empty 0)) text bodySame

/-- The words of a statement that is read back are derivable. -/
theorem derivableAsStatement_of_reprintable {phrase : Phrase} (shape : phrase.IsStatement)
    (reprintable : phrase.Reprintable) : DerivableAsStatement phrase := by
  induction shape with
  | declaration _ => exact derivableAsStatement_declaration _ _
  | initialized _ isExpression =>
      have inValue := reprintable.part List.mem_cons_self
      exact derivableAsStatement_initialized _ (derivable_of_reprintable isExpression inValue) _ _
  | function _ _ shapes derivable =>
      refine derivableAsStatement_function _ _ shapes ?_ (reprintable.statements _ .here) _
      intro statement member
      exact derivable statement member (reprintable.statement member)
  | expression isExpression =>
      exact derivableAsStatement_of_isExpression isExpression
        (derivable_of_reprintable isExpression reprintable)

end NanoScript.Grammar
