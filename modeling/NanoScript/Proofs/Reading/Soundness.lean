import NanoScript.Proofs.Grammar.Follow
import NanoScript.Proofs.Reading.Outcome

/-!
Contract: whatever is read, the grammar derives.

Owns one theorem for each reader: if it yields a value, the tokens it took are those of a
derivation, and the value is the phrase of that derivation.  Besides, no reader stops before an
opening parenthesis unless it has just read an object literal; the rule for statements without a
semicolon rests on that.

The induction is on the count of tokens and, on the same tokens, the level of the grammar: the
measure by which the readers themselves end.
-/

namespace NanoScript.Reading

open Grammar

theorem exists_cons_of_nextKind {tokens : List Token} {kind : Token.Kind}
    (next : nextKind tokens = kind) (notEnd : kind ≠ .endOfInput) :
    ∃ terminal : Terminal kind, tokens = terminal.token :: tokens.tail := by
  cases tokens with
  | nil => exact absurd next.symm notEnd
  | cons token rest => exact ⟨⟨token, next⟩, rfl⟩

theorem length_tail_lt_of_cons {tokens : List Token} {token : Token}
    (split : tokens = token :: tokens.tail) : tokens.tail.length < tokens.length := by
  cases tokens with
  | nil => cases split
  | cons _ rest => exact Nat.lt_succ_self rest.length

/-- What was read as a token of some kind is a terminal. -/
theorem exists_terminal {behind : Span} {kind : Token.Kind} {expected : Expectation}
    {tokens rest : List Token} {token : Token}
    (yields : outcome (expect behind kind expected tokens) = .ok (token, rest)) :
    ∃ terminal : Terminal kind, terminal.token = token ∧ tokens = terminal.token :: rest := by
  obtain ⟨split, ofKind⟩ := eq_cons_of_outcome_expect yields
  exact ⟨⟨token, ofKind⟩, rfl, split⟩

/-- An operator that comes next is an operator mark. -/
theorem exists_operatorMark {level : Operator → Bool} {tokens : List Token} {operator : Operator}
    (next : (nextOperator? tokens).filter level = some operator) :
    ∃ mark : OperatorMark level, mark.operator = operator ∧
      tokens = mark.token :: tokens.tail := by
  obtain ⟨found, onLevel⟩ := Option.filter_eq_some_iff.1 next
  cases tokens with
  | nil => cases found
  | cons token rest =>
      by_cases ofKind : token.kind = .binaryOperator
      · rw [nextOperator?_cons ofKind] at found
        exact ⟨⟨token, operator, ofKind, found, onLevel⟩, rfl, rfl⟩
      · have none : nextOperator? (token :: rest) = none := if_neg ofKind
        cases none.symm.trans found

/-! ## Expressions -/

mutual

theorem exists_expression {behind : Span} {tokens rest : List Token} {value : Phrase}
    (yields : outcome (expression behind tokens) = .ok (value, rest)) :
    ∃ derivation : Grammar.Expression, tokens = derivation.tokens ++ rest ∧
      derivation.phrase = value ∧ (nextKind rest = .openParen → derivation.EndsInLiteral) := by
  rw [outcome_expression, Outcome.andThen_eq_ok_iff] at yields
  obtain ⟨target, afterTarget, first, yields⟩ := yields
  have shorter := length_lt_of_outcome first
  obtain ⟨whole, split, same, literal⟩ := exists_objectLiteral first
  split at yields
  · next atEquals =>
      obtain ⟨equals, equalsSplit⟩ := exists_cons_of_nextKind atEquals (by decide)
      obtain ⟨assigned, later, second, done⟩ := Outcome.andThen_eq_ok_iff.1 yields
      have tailShorter : afterTarget.tail.length ≤ afterTarget.length := by simp
      obtain ⟨value, valueSplit, valueSame, valueLiteral⟩ := exists_expression second
      cases done
      refine ⟨.assignment whole equals value, ?_, ?_, valueLiteral⟩
      · rw [split, equalsSplit, valueSplit]
        simp [Grammar.Expression.tokens]
      · rw [Grammar.Expression.phrase, same, valueSame]
  · cases yields
    exact ⟨.plain whole, split, same, literal⟩
termination_by 16 * tokens.length + 9
decreasing_by all_goals omega

theorem exists_objectLiteral {behind : Span} {tokens rest : List Token} {value : Phrase}
    (yields : outcome (objectLiteral behind tokens) = .ok (value, rest)) :
    ∃ derivation : Grammar.ObjectLiteral, tokens = derivation.tokens ++ rest ∧
      derivation.phrase = value ∧ (nextKind rest = .openParen → derivation.IsLiteral) := by
  by_cases atBrace : nextKind tokens = .openBrace
  · obtain ⟨opening, openingSplit⟩ := exists_cons_of_nextKind atBrace (by decide)
    rw [openingSplit, outcome_objectLiteral_cons, if_pos opening.ofKind,
      Outcome.andThen_eq_ok_iff] at yields
    obtain ⟨listed, afterEntries, first, yields⟩ := yields
    obtain ⟨close, later, second, done⟩ := Outcome.andThen_eq_ok_iff.1 yields
    have tailShorter := length_tail_lt_of_cons openingSplit
    obtain ⟨inside, split, same⟩ := exists_entries first
    obtain ⟨closing, closingSame, closingSplit⟩ := exists_terminal second
    cases done
    refine ⟨.literal opening inside closing, ?_, ?_, fun _ => trivial⟩
    · rw [openingSplit, split, closingSplit]
      simp [Grammar.ObjectLiteral.tokens]
    · rw [Grammar.ObjectLiteral.phrase, same, closingSame]
  · have asSum : outcome (sum behind tokens) = .ok (value, rest) := by
      cases tokens with
      | nil => rwa [outcome_objectLiteral_nil] at yields
      | cons first others =>
          rw [nextKind_cons] at atBrace
          rwa [outcome_objectLiteral_cons, if_neg atBrace] at yields
    obtain ⟨whole, split, same, stops⟩ := exists_sum asSum
    exact ⟨.sum whole, split, same, fun atParen => absurd atParen stops⟩
termination_by 16 * tokens.length + 8
decreasing_by all_goals omega

theorem exists_entries {behind : Span} {tokens rest : List Token} {values : List Entry}
    (yields : outcome (entries behind tokens) = .ok (values, rest)) :
    ∃ derivation : Grammar.Entries, tokens = derivation.tokens ++ rest ∧
      derivation.phrases = values := by
  rw [outcome_entries] at yields
  split at yields
  · cases yields
    exact ⟨.none, rfl, rfl⟩
  · obtain ⟨value, afterFirst, first, yields⟩ := Outcome.andThen_eq_ok_iff.1 yields
    obtain ⟨others, later, second, done⟩ := Outcome.andThen_eq_ok_iff.1 yields
    have shorter := length_lt_of_outcome first
    obtain ⟨listed, same, shape⟩ := exists_entry first
    cases done
    rcases shape with ⟨comma, split⟩ | ⟨split, closes⟩
    · obtain ⟨tail, tailSplit, tailSame⟩ := exists_entries second
      refine ⟨.more listed comma tail, ?_, ?_⟩
      · rw [split, tailSplit]
        simp [Grammar.Entries.tokens]
      · rw [Grammar.Entries.phrases, same, tailSame]
    · rw [outcome_entries, closes] at second
      cases second
      exact ⟨.last listed, split, by rw [Grammar.Entries.phrases, same]⟩
termination_by 16 * tokens.length + 11
decreasing_by all_goals omega

/-- An entry is read with the comma behind it, or it stands before the closing brace. -/
theorem exists_entry {behind : Span} {tokens rest : List Token} {value : Entry}
    (yields : outcome (entry behind tokens) = .ok (value, rest)) :
    ∃ derivation : Grammar.Entry, derivation.phrase = value ∧
      ((∃ comma : Terminal .comma, tokens = derivation.tokens ++ comma.token :: rest) ∨
        tokens = derivation.tokens ++ rest ∧ nextKind rest = .closeBrace) := by
  rw [outcome_entry, Outcome.andThen_eq_ok_iff] at yields
  obtain ⟨name, afterKey, first, yields⟩ := yields
  have afterKeyShorter := length_lt_of_outcome first
  obtain ⟨key, keySame, split⟩ := exists_terminal first
  subst keySame
  split at yields
  · next atComma =>
      obtain ⟨comma, commaSplit⟩ := exists_cons_of_nextKind atComma (by decide)
      cases yields
      refine ⟨.shorthand key, rfl, .inl ⟨comma, ?_⟩⟩
      rw [split, commaSplit]
      rfl
  · split at yields
    · next atClose =>
        cases yields
        exact ⟨.shorthand key, rfl, .inr ⟨split, atClose⟩⟩
    · obtain ⟨_, afterColon, second, yields⟩ := Outcome.andThen_eq_ok_iff.1 yields
      obtain ⟨written, afterValue, third, yields⟩ := Outcome.andThen_eq_ok_iff.1 yields
      have afterColonShorter := length_lt_of_outcome second
      obtain ⟨colon, _, colonSplit⟩ := exists_terminal second
      obtain ⟨expression, expressionSplit, expressionSame, _⟩ := exists_expression third
      split at yields
      · next atClose =>
          cases yields
          refine ⟨.keyed key colon expression, ?_, .inr ⟨?_, atClose⟩⟩
          · rw [Grammar.Entry.phrase, expressionSame]
          · rw [split, colonSplit, expressionSplit]
            simp [Grammar.Entry.tokens]
      · obtain ⟨_, later, fourth, done⟩ := Outcome.andThen_eq_ok_iff.1 yields
        obtain ⟨comma, _, commaSplit⟩ := exists_terminal fourth
        cases done
        refine ⟨.keyed key colon expression, ?_, .inl ⟨comma, ?_⟩⟩
        · rw [Grammar.Entry.phrase, expressionSame]
        · rw [split, colonSplit, expressionSplit, commaSplit]
          simp [Grammar.Entry.tokens]
termination_by 16 * tokens.length + 10
decreasing_by all_goals omega

theorem exists_sum {behind : Span} {tokens rest : List Token} {value : Phrase}
    (yields : outcome (sum behind tokens) = .ok (value, rest)) :
    ∃ derivation : Grammar.Sum, tokens = derivation.tokens ++ rest ∧
      derivation.phrase = value ∧ nextKind rest ≠ .openParen := by
  rw [outcome_sum, Outcome.andThen_eq_ok_iff] at yields
  obtain ⟨left, afterFirst, head, yields⟩ := yields
  have shorter := length_lt_of_outcome head
  obtain ⟨first, split, same, stops⟩ := exists_product head
  obtain ⟨tail, tailSplit, tailSame, tailStops⟩ := exists_sumTail yields stops
  refine ⟨.mk first tail, ?_, ?_, tailStops⟩
  · rw [split, tailSplit, Grammar.Sum.tokens, List.append_assoc]
  · rw [Grammar.Sum.phrase, same, tailSame]
termination_by 16 * tokens.length + 7
decreasing_by all_goals omega

theorem exists_sumTail {behind : Span} {left : Phrase} {tokens rest : List Token}
    {value : Phrase} (yields : outcome (sumTail behind left tokens) = .ok (value, rest))
    (stops : nextKind tokens ≠ .openParen) :
    ∃ derivation : Grammar.SumTail, tokens = derivation.tokens ++ rest ∧
      derivation.phrase left = value ∧ nextKind rest ≠ .openParen := by
  rw [outcome_sumTail] at yields
  split at yields
  · next operator next =>
      obtain ⟨mark, markSame, markSplit⟩ := exists_operatorMark next
      obtain ⟨operand, afterRight, head, yields⟩ := Outcome.andThen_eq_ok_iff.1 yields
      have tailShorter := length_tail_lt_of_cons markSplit
      have shorter := length_lt_of_outcome head
      obtain ⟨right, split, same, rightStops⟩ := exists_product head
      obtain ⟨tail, tailSplit, tailSame, tailStops⟩ := exists_sumTail yields rightStops
      refine ⟨.more mark right tail, ?_, ?_, tailStops⟩
      · rw [markSplit, split, tailSplit]
        simp [Grammar.SumTail.tokens]
      · rw [Grammar.SumTail.phrase, markSame, same, tailSame]
  · cases yields
    exact ⟨.done, rfl, rfl, stops⟩
termination_by 16 * tokens.length + 6
decreasing_by all_goals omega

theorem exists_product {behind : Span} {tokens rest : List Token} {value : Phrase}
    (yields : outcome (product behind tokens) = .ok (value, rest)) :
    ∃ derivation : Grammar.Product, tokens = derivation.tokens ++ rest ∧
      derivation.phrase = value ∧ nextKind rest ≠ .openParen := by
  rw [outcome_product, Outcome.andThen_eq_ok_iff] at yields
  obtain ⟨left, afterFirst, head, yields⟩ := yields
  have shorter := length_lt_of_outcome head
  obtain ⟨first, split, same, stops⟩ := exists_call head
  obtain ⟨tail, tailSplit, tailSame, tailStops⟩ := exists_productTail yields stops
  refine ⟨.mk first tail, ?_, ?_, tailStops⟩
  · rw [split, tailSplit, Grammar.Product.tokens, List.append_assoc]
  · rw [Grammar.Product.phrase, same, tailSame]
termination_by 16 * tokens.length + 5
decreasing_by all_goals omega

theorem exists_productTail {behind : Span} {left : Phrase} {tokens rest : List Token}
    {value : Phrase} (yields : outcome (productTail behind left tokens) = .ok (value, rest))
    (stops : nextKind tokens ≠ .openParen) :
    ∃ derivation : Grammar.ProductTail, tokens = derivation.tokens ++ rest ∧
      derivation.phrase left = value ∧ nextKind rest ≠ .openParen := by
  rw [outcome_productTail] at yields
  split at yields
  · next operator next =>
      obtain ⟨mark, markSame, markSplit⟩ := exists_operatorMark next
      obtain ⟨operand, afterRight, head, yields⟩ := Outcome.andThen_eq_ok_iff.1 yields
      have tailShorter := length_tail_lt_of_cons markSplit
      have shorter := length_lt_of_outcome head
      obtain ⟨right, split, same, rightStops⟩ := exists_call head
      obtain ⟨tail, tailSplit, tailSame, tailStops⟩ := exists_productTail yields rightStops
      refine ⟨.more mark right tail, ?_, ?_, tailStops⟩
      · rw [markSplit, split, tailSplit]
        simp [Grammar.ProductTail.tokens]
      · rw [Grammar.ProductTail.phrase, markSame, same, tailSame]
  · cases yields
    exact ⟨.done, rfl, rfl, stops⟩
termination_by 16 * tokens.length + 4
decreasing_by all_goals omega

theorem exists_call {behind : Span} {tokens rest : List Token} {value : Phrase}
    (yields : outcome (call behind tokens) = .ok (value, rest)) :
    ∃ derivation : Grammar.Call, tokens = derivation.tokens ++ rest ∧
      derivation.phrase = value ∧ nextKind rest ≠ .openParen := by
  rw [outcome_call, Outcome.andThen_eq_ok_iff] at yields
  obtain ⟨called, afterCallee, head, yields⟩ := yields
  have shorter := length_lt_of_outcome head
  obtain ⟨callee, split, same⟩ := exists_member head
  obtain ⟨tail, tailSplit, tailSame, stops⟩ := exists_callTail yields
  refine ⟨.mk callee tail, ?_, ?_, stops⟩
  · rw [split, tailSplit, Grammar.Call.tokens, List.append_assoc]
  · rw [Grammar.Call.phrase, same, tailSame]
termination_by 16 * tokens.length + 3
decreasing_by all_goals omega

theorem exists_callTail {behind : Span} {callee : Phrase} {tokens rest : List Token}
    {value : Phrase} (yields : outcome (callTail behind callee tokens) = .ok (value, rest)) :
    ∃ derivation : Grammar.CallTail, tokens = derivation.tokens ++ rest ∧
      derivation.phrase callee = value ∧ nextKind rest ≠ .openParen := by
  rw [outcome_callTail] at yields
  split at yields
  · obtain ⟨list, afterList, head, yields⟩ := Outcome.andThen_eq_ok_iff.1 yields
    have shorter := length_lt_of_outcome head
    obtain ⟨listed, split, same, closing⟩ := exists_argumentList head
    obtain ⟨tail, tailSplit, tailSame, stops⟩ := exists_callTail yields
    refine ⟨.more listed tail, ?_, ?_, stops⟩
    · rw [split, tailSplit, Grammar.CallTail.tokens, List.append_assoc]
    · rw [Grammar.CallTail.phrase, same, closing, tailSame]
  · next stops =>
      cases yields
      exact ⟨.done, rfl, rfl, stops⟩
termination_by 16 * tokens.length + 13
decreasing_by all_goals omega

theorem exists_argumentList {behind : Span} {tokens rest : List Token}
    {value : List Phrase × Span}
    (yields : outcome (argumentList behind tokens) = .ok (value, rest)) :
    ∃ derivation : Grammar.ArgumentList, tokens = derivation.tokens ++ rest ∧
      derivation.phrases = value.1 ∧ derivation.closingSpan = value.2 := by
  rw [outcome_argumentList, Outcome.andThen_eq_ok_iff] at yields
  obtain ⟨_, afterOpening, first, yields⟩ := yields
  obtain ⟨values, afterArguments, second, yields⟩ := Outcome.andThen_eq_ok_iff.1 yields
  obtain ⟨close, later, third, done⟩ := Outcome.andThen_eq_ok_iff.1 yields
  have shorter := length_lt_of_outcome first
  obtain ⟨opening, _, openingSplit⟩ := exists_terminal first
  obtain ⟨listed, split, same⟩ := exists_arguments second
  obtain ⟨closing, closingSame, closingSplit⟩ := exists_terminal third
  cases done
  refine ⟨.mk opening listed closing, ?_, same, ?_⟩
  · rw [openingSplit, split, closingSplit]
    simp [Grammar.ArgumentList.tokens]
  · rw [Grammar.ArgumentList.closingSpan, closingSame]
termination_by 16 * tokens.length + 12
decreasing_by all_goals omega

theorem exists_arguments {behind : Span} {tokens rest : List Token} {values : List Phrase}
    (yields : outcome (arguments behind tokens) = .ok (values, rest)) :
    ∃ derivation : Grammar.Arguments, tokens = derivation.tokens ++ rest ∧
      derivation.phrases = values := by
  rw [outcome_arguments] at yields
  split at yields
  · cases yields
    exact ⟨.none, rfl, rfl⟩
  · obtain ⟨value, afterFirst, head, yields⟩ := Outcome.andThen_eq_ok_iff.1 yields
    obtain ⟨others, later, second, done⟩ := Outcome.andThen_eq_ok_iff.1 yields
    have shorter := length_lt_of_outcome head
    obtain ⟨first, split, same, _⟩ := exists_expression head
    obtain ⟨tail, tailSplit, tailSame⟩ := exists_argumentsTail second
    cases done
    refine ⟨.some first tail, ?_, ?_⟩
    · rw [split, tailSplit, Grammar.Arguments.tokens, List.append_assoc]
    · rw [Grammar.Arguments.phrases, same, tailSame]
termination_by 16 * tokens.length + 11
decreasing_by all_goals omega

theorem exists_argumentsTail {behind : Span} {tokens rest : List Token} {values : List Phrase}
    (yields : outcome (argumentsTail behind tokens) = .ok (values, rest)) :
    ∃ derivation : Grammar.ArgumentsTail, tokens = derivation.tokens ++ rest ∧
      derivation.phrases = values := by
  rw [outcome_argumentsTail] at yields
  split at yields
  · next atComma =>
      obtain ⟨comma, commaSplit⟩ := exists_cons_of_nextKind atComma (by decide)
      obtain ⟨value, afterArgument, head, yields⟩ := Outcome.andThen_eq_ok_iff.1 yields
      obtain ⟨others, later, second, done⟩ := Outcome.andThen_eq_ok_iff.1 yields
      have tailShorter := length_tail_lt_of_cons commaSplit
      have shorter := length_lt_of_outcome head
      obtain ⟨argument, split, same, _⟩ := exists_expression head
      obtain ⟨tail, tailSplit, tailSame⟩ := exists_argumentsTail second
      cases done
      refine ⟨.more comma argument tail, ?_, ?_⟩
      · rw [commaSplit, split, tailSplit]
        simp [Grammar.ArgumentsTail.tokens]
      · rw [Grammar.ArgumentsTail.phrases, same, tailSame]
  · cases yields
    exact ⟨.done, rfl, rfl⟩
termination_by 16 * tokens.length
decreasing_by all_goals omega

theorem exists_member {behind : Span} {tokens rest : List Token} {value : Phrase}
    (yields : outcome (member behind tokens) = .ok (value, rest)) :
    ∃ derivation : Grammar.Member, tokens = derivation.tokens ++ rest ∧
      derivation.phrase = value := by
  rw [outcome_member, Outcome.andThen_eq_ok_iff] at yields
  obtain ⟨left, afterObject, head, yields⟩ := yields
  have shorter := length_lt_of_outcome head
  obtain ⟨object, split, same⟩ := exists_operand head
  obtain ⟨tail, tailSplit, tailSame⟩ := exists_memberTail yields
  refine ⟨.mk object tail, ?_, ?_⟩
  · rw [split, tailSplit, Grammar.Member.tokens, List.append_assoc]
  · rw [Grammar.Member.phrase, same, tailSame]
termination_by 16 * tokens.length + 2
decreasing_by all_goals omega

theorem exists_memberTail {behind : Span} {object : Phrase} {tokens rest : List Token}
    {value : Phrase} (yields : outcome (memberTail behind object tokens) = .ok (value, rest)) :
    ∃ derivation : Grammar.MemberTail, tokens = derivation.tokens ++ rest ∧
      derivation.phrase object = value := by
  rw [outcome_memberTail] at yields
  split at yields
  · next atDot =>
      obtain ⟨dot, dotSplit⟩ := exists_cons_of_nextKind atDot (by decide)
      obtain ⟨_, afterName, head, yields⟩ := Outcome.andThen_eq_ok_iff.1 yields
      have tailShorter := length_tail_lt_of_cons dotSplit
      have shorter := length_lt_of_outcome head
      obtain ⟨name, nameSame, split⟩ := exists_terminal head
      subst nameSame
      obtain ⟨tail, tailSplit, tailSame⟩ := exists_memberTail yields
      refine ⟨.named dot name tail, ?_, tailSame⟩
      rw [dotSplit, split, tailSplit]
      simp [Grammar.MemberTail.tokens]
  · split at yields
    · next atBracket =>
        obtain ⟨opening, openingSplit⟩ := exists_cons_of_nextKind atBracket (by decide)
        obtain ⟨inside, afterProperty, first, yields⟩ := Outcome.andThen_eq_ok_iff.1 yields
        obtain ⟨_, afterClosing, second, yields⟩ := Outcome.andThen_eq_ok_iff.1 yields
        have tailShorter := length_tail_lt_of_cons openingSplit
        have propertyShorter := length_lt_of_outcome first
        have closingShorter := length_lt_of_outcome second
        obtain ⟨property, split, same, _⟩ := exists_expression first
        obtain ⟨closing, closingSame, closingSplit⟩ := exists_terminal second
        subst closingSame
        obtain ⟨tail, tailSplit, tailSame⟩ := exists_memberTail yields
        refine ⟨.computed opening property closing tail, ?_, ?_⟩
        · rw [openingSplit, split, closingSplit, tailSplit]
          simp [Grammar.MemberTail.tokens]
        · rw [Grammar.MemberTail.phrase, same, tailSame]
    · cases yields
      exact ⟨.done, rfl, rfl⟩
termination_by 16 * tokens.length
decreasing_by all_goals omega

theorem exists_operand {behind : Span} {tokens rest : List Token} {value : Phrase}
    (yields : outcome (operand behind tokens) = .ok (value, rest)) :
    ∃ derivation : Grammar.Operand, tokens = derivation.tokens ++ rest ∧
      derivation.phrase = value := by
  cases tokens with
  | nil =>
      rw [outcome_operand_nil] at yields
      cases yields
  | cons first others =>
      rw [outcome_operand_cons] at yields
      split at yields
      · next ofKind =>
          cases yields
          exact ⟨.name ⟨first, ofKind⟩, rfl, rfl⟩
      · split at yields
        · next ofKind =>
            split at yields
            · next value reads =>
                cases yields
                exact ⟨.number ⟨first, value, ofKind, reads⟩, rfl, rfl⟩
            · cases yields
        · split at yields
          · next ofKind =>
              obtain ⟨inside, afterValue, head, yields⟩ := Outcome.andThen_eq_ok_iff.1 yields
              obtain ⟨_, later, second, done⟩ := Outcome.andThen_eq_ok_iff.1 yields
              obtain ⟨value, split, same, _⟩ := exists_expression head
              obtain ⟨closing, _, closingSplit⟩ := exists_terminal second
              cases done
              refine ⟨.group ⟨first, ofKind⟩ value closing, ?_, same⟩
              rw [split, closingSplit]
              simp [Grammar.Operand.tokens]
          · cases yields
termination_by 16 * tokens.length + 1
decreasing_by
  subst_vars
  simp only [List.length_cons]
  omega

end

/-! ## Statements -/

/-- Names are found for parameters only if each is a name. -/
theorem parameterNames_ok {phrases : List Phrase} {names : List String}
    (found : parameterNames phrases = .ok names) :
    (∀ phrase ∈ phrases, phrase.name?.isSome) ∧ phrases.filterMap Phrase.name? = names := by
  induction phrases generalizing names with
  | nil =>
      cases found
      exact ⟨fun _ member => absurd member List.not_mem_nil, rfl⟩
  | cons phrase rest inductionHypothesis =>
      cases name : phrase.name? with
      | none =>
          rw [parameterNames, name] at found
          cases found
      | some first =>
          cases others : parameterNames rest with
          | error error =>
              rw [parameterNames, name, others] at found
              cases found
          | ok later =>
              rw [parameterNames, name, others] at found
              cases found
              obtain ⟨areNames, same⟩ := inductionHypothesis others
              refine ⟨?_, ?_⟩
              · intro other member
                rcases List.mem_cons.1 member with here | there
                · rw [here, name]
                  rfl
                · exact areNames other there
              · rw [List.filterMap_cons_some name, same]

theorem exists_variableDeclaration {behind : Span} {constant : Bool}
    (keyword : Terminal (declarationKeyword constant)) {tokens rest : List Token}
    {value : Phrase}
    (yields :
      outcome (variableDeclaration behind constant keyword.token tokens) = .ok (value, rest)) :
    ∃ derivation : Grammar.Statement, keyword.token :: tokens = derivation.tokens ++ rest ∧
      derivation.phrase = value ∧ derivation.Separated ∧
      derivation.MayPrecede (nextKind rest) := by
  rw [outcome_variableDeclaration, Outcome.andThen_eq_ok_iff] at yields
  obtain ⟨_, afterName, first, yields⟩ := yields
  obtain ⟨name, nameSame, nameSplit⟩ := exists_terminal first
  subst nameSame
  split at yields
  · obtain ⟨_, later, second, done⟩ := Outcome.andThen_eq_ok_iff.1 yields
    obtain ⟨semicolon, semicolonSame, semicolonSplit⟩ := exists_terminal second
    subst semicolonSame
    cases constant with
    | true => cases done
    | false =>
        cases done
        refine ⟨.declaration keyword name semicolon, ?_, rfl, trivial, trivial⟩
        rw [nameSplit, semicolonSplit]
        rfl
  · obtain ⟨_, afterEquals, second, yields⟩ := Outcome.andThen_eq_ok_iff.1 yields
    obtain ⟨inside, afterValue, third, yields⟩ := Outcome.andThen_eq_ok_iff.1 yields
    obtain ⟨_, later, fourth, done⟩ := Outcome.andThen_eq_ok_iff.1 yields
    obtain ⟨equals, _, equalsSplit⟩ := exists_terminal second
    obtain ⟨value, split, same, _⟩ := exists_expression third
    obtain ⟨semicolon, semicolonSame, semicolonSplit⟩ := exists_terminal fourth
    subst semicolonSame
    cases done
    refine ⟨.initialized constant keyword name equals value semicolon, ?_, ?_, trivial, trivial⟩
    · rw [nameSplit, equalsSplit, split, semicolonSplit]
      simp [Grammar.Statement.tokens]
    · rw [Grammar.Statement.phrase, same]

/-- An expression statement takes the semicolon behind it, if there is one. -/
theorem exists_expressionStatement {behind : Span} {tokens rest : List Token} {value : Phrase}
    (yields :
      (outcome (expression behind tokens)).andThen
        (fun value rest => .ok (value, dropSemicolon rest)) = .ok (value, rest)) :
    ∃ derivation : Grammar.Statement, tokens = derivation.tokens ++ rest ∧
      derivation.phrase = value ∧ derivation.Separated ∧
      derivation.MayPrecede (nextKind rest) := by
  obtain ⟨value, afterValue, first, done⟩ := Outcome.andThen_eq_ok_iff.1 yields
  obtain ⟨expression, split, same, literal⟩ := exists_expression first
  cases done
  by_cases atSemicolon : nextKind afterValue = .semicolon
  · obtain ⟨semicolon, semicolonSplit⟩ := exists_cons_of_nextKind atSemicolon (by decide)
    have dropped : dropSemicolon afterValue = afterValue.tail := by
      rw [semicolonSplit]
      exact if_pos semicolon.ofKind
    refine ⟨.terminated expression semicolon, ?_, same, trivial, trivial⟩
    rw [split, dropped, Grammar.Statement.tokens, List.append_assoc, List.cons_append,
      List.nil_append, ← semicolonSplit]
  · have kept : dropSemicolon afterValue = afterValue := by
      cases afterValue with
      | nil => rfl
      | cons token others => exact if_neg atSemicolon
    rw [kept]
    exact ⟨.unterminated expression, split, same, trivial, literal⟩

mutual

theorem exists_statement {behind : Span} {tokens rest : List Token} {value : Phrase}
    (yields : outcome (statement behind tokens) = .ok (value, rest)) :
    ∃ derivation : Grammar.Statement, tokens = derivation.tokens ++ rest ∧
      derivation.phrase = value ∧ derivation.Separated ∧
      derivation.MayPrecede (nextKind rest) := by
  cases tokens with
  | nil =>
      rw [outcome_statement_nil] at yields
      obtain ⟨expression, split, _⟩ := exists_expression yields
      have starts := expression.starts rest
      rw [← split] at starts
      cases starts
  | cons first others =>
      rw [outcome_statement_cons] at yields
      split at yields
      · next ofKind =>
          let keyword : Terminal (declarationKeyword false) := ⟨first, ofKind⟩
          exact exists_variableDeclaration keyword yields
      · next ofKind =>
          let keyword : Terminal (declarationKeyword true) := ⟨first, ofKind⟩
          exact exists_variableDeclaration keyword yields
      · next ofKind => exact exists_functionDeclaration ⟨first, ofKind⟩ yields
      · exact exists_expressionStatement yields
termination_by 16 * tokens.length + 10
decreasing_by
  subst_vars
  simp only [List.length_cons]
  omega

theorem exists_functionDeclaration {behind : Span} (keyword : Terminal .fnKeyword)
    {tokens rest : List Token} {value : Phrase}
    (yields : outcome (functionDeclaration behind keyword.token tokens) = .ok (value, rest)) :
    ∃ derivation : Grammar.Statement, keyword.token :: tokens = derivation.tokens ++ rest ∧
      derivation.phrase = value ∧ derivation.Separated ∧
      derivation.MayPrecede (nextKind rest) := by
  rw [outcome_functionDeclaration, Outcome.andThen_eq_ok_iff] at yields
  obtain ⟨_, afterName, first, yields⟩ := yields
  obtain ⟨list, afterList, second, yields⟩ := Outcome.andThen_eq_ok_iff.1 yields
  have afterNameShorter := length_lt_of_outcome first
  have afterListShorter := length_lt_of_outcome second
  obtain ⟨name, nameSame, nameSplit⟩ := exists_terminal first
  obtain ⟨listed, listSplit, listSame, _⟩ := exists_argumentList second
  subst nameSame
  cases found : parameterNames list.1 with
  | error error =>
      rw [found] at yields
      cases yields
  | ok names =>
      rw [found] at yields
      obtain ⟨_, afterOpening, third, yields⟩ := Outcome.andThen_eq_ok_iff.1 yields
      obtain ⟨inside, afterBody, fourth, yields⟩ := Outcome.andThen_eq_ok_iff.1 yields
      obtain ⟨_, later, fifth, done⟩ := Outcome.andThen_eq_ok_iff.1 yields
      have afterOpeningShorter := length_lt_of_outcome third
      obtain ⟨opening, _, openingSplit⟩ := exists_terminal third
      obtain ⟨body, bodySplit, bodySame, separated, _⟩ := exists_statements fourth
      obtain ⟨closing, closingSame, closingSplit⟩ := exists_terminal fifth
      subst closingSame
      cases done
      obtain ⟨areNames, namesSame⟩ := parameterNames_ok found
      refine ⟨.function keyword name ⟨listed, listSame ▸ areNames⟩ opening body closing, ?_, ?_,
        separated, trivial⟩
      · rw [nameSplit, listSplit, openingSplit, bodySplit, closingSplit]
        simp [Grammar.Statement.tokens]
      · rw [Grammar.Statement.phrase, bodySame, ParameterList.names, listSame, namesSame]
termination_by 16 * tokens.length + 12
decreasing_by omega

theorem exists_statements {behind : Span} {block : Block} {tokens rest : List Token}
    {values : List Phrase}
    (yields : outcome (statements behind block tokens) = .ok (values, rest)) :
    ∃ derivation : Grammar.Statements, tokens = derivation.tokens ++ rest ∧
      derivation.phrases = values ∧ derivation.Separated ∧
      block.endsBefore (nextKind rest) = true := by
  rw [outcome_statements] at yields
  split at yields
  · next ends =>
      cases yields
      exact ⟨.none, rfl, rfl, trivial, ends⟩
  · obtain ⟨value, afterFirst, head, yields⟩ := Outcome.andThen_eq_ok_iff.1 yields
    obtain ⟨others, later, second, done⟩ := Outcome.andThen_eq_ok_iff.1 yields
    have shorter := length_lt_of_outcome head
    obtain ⟨first, split, same, separated, may⟩ := exists_statement head
    obtain ⟨tail, tailSplit, tailSame, tailSeparated, ends⟩ := exists_statements second
    cases done
    refine ⟨.more first tail, ?_, ?_, ⟨separated, ?_, tailSeparated⟩, ends⟩
    · rw [split, tailSplit, Grammar.Statements.tokens, List.append_assoc]
    · rw [Grammar.Statements.phrases, same, tailSame]
    · rw [tailSplit] at may
      exact first.mayPrecede_of_append may
termination_by 16 * tokens.length + 11
decreasing_by all_goals omega

end

end NanoScript.Reading
