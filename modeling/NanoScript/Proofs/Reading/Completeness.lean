import NanoScript.Proofs.Grammar.Follow
import NanoScript.Proofs.Reading.Outcome

/-!
Contract: whatever the grammar derives is read.

Owns one theorem for each symbol of the grammar: the tokens of a derivation, with others behind
them before which it cannot go on, are read as the phrase of the derivation, and the others are
left.  The induction is on the derivation; every theorem follows its reader step by step.
-/

namespace NanoScript.Grammar

open Reading

/-! ## Expressions -/

mutual

theorem Expression.read (derivation : Expression) (behind : Span) (rest : List Token)
    (stops : derivation.StopsBefore rest) :
    outcome (expression behind (derivation.tokens ++ rest)) = .ok (derivation.phrase, rest) := by
  match derivation with
  | .plain whole =>
      have first := whole.read behind rest stops.1
      rw [Expression.tokens, Expression.phrase, outcome_expression, first, Outcome.andThen_ok,
        if_neg stops.2]
  | .assignment target equals value =>
      have targetStops : target.StopsBefore (equals.token :: (value.tokens ++ rest)) := by
        cases target with
        | literal opening entries closing => exact trivial
        | sum whole => exact stopsSum_of_equals equals.ofKind
      have first := target.read behind _ targetStops
      have second := value.read behind rest stops
      rw [Expression.tokens, Expression.phrase, List.append_assoc, List.cons_append]
      rw [outcome_expression, first, Outcome.andThen_ok, nextKind_cons, if_pos equals.ofKind,
        List.tail_cons, second, Outcome.andThen_ok]
termination_by structural derivation

theorem ObjectLiteral.read (derivation : ObjectLiteral) (behind : Span) (rest : List Token)
    (stops : derivation.StopsBefore rest) :
    outcome (objectLiteral behind (derivation.tokens ++ rest)) =
      .ok (derivation.phrase, rest) := by
  match derivation with
  | .literal opening listed closing =>
      have inside := listed.read behind (closing.token :: rest) closing.ofKind
      rw [ObjectLiteral.tokens, ObjectLiteral.phrase, List.cons_append, List.append_assoc,
        List.cons_append, List.nil_append]
      rw [outcome_objectLiteral_cons, if_pos opening.ofKind, inside, Outcome.andThen_ok,
        outcome_expect_of_kind _ _ closing.ofKind, Outcome.andThen_ok]
  | .sum whole =>
      have inside := whole.read behind rest stops
      have starts := whole.starts rest
      rw [ObjectLiteral.tokens, ObjectLiteral.phrase]
      cases together : whole.tokens ++ rest with
      | nil =>
          rw [together] at starts
          cases starts
      | cons first others =>
          rw [together] at starts inside
          have notBrace : ¬ first.kind = .openBrace := by
            intro atBrace
            rw [nextKind_cons, atBrace] at starts
            cases starts
          rw [outcome_objectLiteral_cons, if_neg notBrace, inside]
termination_by structural derivation

theorem Entries.read (derivation : Entries) (behind : Span) (rest : List Token)
    (closes : nextKind rest = .closeBrace) :
    outcome (entries behind (derivation.tokens ++ rest)) = .ok (derivation.phrases, rest) := by
  match derivation with
  | .none =>
      rw [Entries.tokens, Entries.phrases, List.nil_append]
      rw [outcome_entries, closes]
      rfl
  | .last listed =>
      have first := listed.read_last behind rest closes
      have atEnd : outcome (entries behind rest) = .ok ([], rest) := by
        rw [outcome_entries, closes]
        rfl
      rw [Entries.tokens, Entries.phrases]
      rw [outcome_entries, listed.starts, first, Outcome.andThen_ok, atEnd, Outcome.andThen_ok]
      rfl
  | .more listed comma others =>
      have first := listed.read_more behind comma (others.tokens ++ rest)
      have second := others.read behind rest closes
      rw [Entries.tokens, Entries.phrases, List.append_assoc, List.cons_append]
      rw [outcome_entries, listed.starts, first, Outcome.andThen_ok, second, Outcome.andThen_ok]
      rfl
termination_by structural derivation

/-- The last entry leaves out its comma. -/
theorem Entry.read_last (derivation : Entry) (behind : Span) (rest : List Token)
    (closes : nextKind rest = .closeBrace) :
    outcome (entry behind (derivation.tokens ++ rest)) = .ok (derivation.phrase, rest) := by
  match derivation with
  | .shorthand key =>
      rw [Entry.tokens, Entry.phrase, List.cons_append, List.nil_append]
      rw [outcome_entry, outcome_expect_of_kind _ _ key.ofKind, Outcome.andThen_ok, closes]
      rfl
  | .keyed key colon value =>
      have inside := value.read behind rest (value.stopsBefore_of_ends (by rw [closes]; rfl))
      rw [Entry.tokens, Entry.phrase, List.cons_append, List.cons_append]
      rw [outcome_entry, outcome_expect_of_kind _ _ key.ofKind, Outcome.andThen_ok,
        nextKind_cons, colon.ofKind, if_neg (by decide), if_neg (by decide),
        outcome_expect_of_kind _ _ colon.ofKind, Outcome.andThen_ok, inside, Outcome.andThen_ok,
        if_pos closes]
termination_by structural derivation

theorem Entry.read_more (derivation : Entry) (behind : Span) (comma : Terminal .comma)
    (rest : List Token) :
    outcome (entry behind (derivation.tokens ++ comma.token :: rest)) =
      .ok (derivation.phrase, rest) := by
  match derivation with
  | .shorthand key =>
      rw [Entry.tokens, Entry.phrase, List.cons_append, List.nil_append]
      rw [outcome_entry, outcome_expect_of_kind _ _ key.ofKind, Outcome.andThen_ok,
        nextKind_cons, if_pos comma.ofKind, List.tail_cons]
  | .keyed key colon value =>
      have inside := value.read behind (comma.token :: rest)
        (value.stopsBefore_terminal comma rest rfl)
      rw [Entry.tokens, Entry.phrase, List.cons_append, List.cons_append]
      rw [outcome_entry, outcome_expect_of_kind _ _ key.ofKind, Outcome.andThen_ok,
        nextKind_cons, colon.ofKind, if_neg (by decide), if_neg (by decide),
        outcome_expect_of_kind _ _ colon.ofKind, Outcome.andThen_ok, inside, Outcome.andThen_ok,
        nextKind_cons, comma.ofKind, if_neg (by decide), outcome_expect_of_kind _ _ comma.ofKind,
        Outcome.andThen_ok]
termination_by structural derivation

theorem Sum.read (derivation : Sum) (behind : Span) (rest : List Token) (stops : StopsSum rest) :
    outcome (sum behind (derivation.tokens ++ rest)) = .ok (derivation.phrase, rest) := by
  match derivation with
  | .mk first tail =>
      have head := first.read behind (tail.tokens ++ rest) (tail.stopsProduct stops)
      have others := tail.read behind first.phrase rest stops
      rw [Sum.tokens, Sum.phrase, List.append_assoc]
      rw [outcome_sum, head, Outcome.andThen_ok, others]
termination_by structural derivation

theorem SumTail.read (derivation : SumTail) (behind : Span) (left : Phrase) (rest : List Token)
    (stops : StopsSum rest) :
    outcome (sumTail behind left (derivation.tokens ++ rest)) =
      .ok (derivation.phrase left, rest) := by
  match derivation with
  | .done =>
      rw [SumTail.tokens, SumTail.phrase, List.nil_append]
      rw [outcome_sumTail, stops.2]
      rfl
  | .more mark right tail =>
      have head := right.read behind (tail.tokens ++ rest) (tail.stopsProduct stops)
      have others := tail.read behind (.ofOperands left mark.operator right.phrase) rest stops
      rw [SumTail.tokens, SumTail.phrase, List.cons_append, List.append_assoc]
      rw [outcome_sumTail, mark.nextOperator?, Option.filter_some, if_pos mark.onLevel]
      simp only [List.tail_cons]
      rw [head, Outcome.andThen_ok, others]
termination_by structural derivation

theorem Product.read (derivation : Product) (behind : Span) (rest : List Token)
    (stops : StopsProduct rest) :
    outcome (product behind (derivation.tokens ++ rest)) = .ok (derivation.phrase, rest) := by
  match derivation with
  | .mk first tail =>
      have head := first.read behind (tail.tokens ++ rest) (tail.stopsCall stops)
      have others := tail.read behind first.phrase rest stops
      rw [Product.tokens, Product.phrase, List.append_assoc]
      rw [outcome_product, head, Outcome.andThen_ok, others]
termination_by structural derivation

theorem ProductTail.read (derivation : ProductTail) (behind : Span) (left : Phrase)
    (rest : List Token) (stops : StopsProduct rest) :
    outcome (productTail behind left (derivation.tokens ++ rest)) =
      .ok (derivation.phrase left, rest) := by
  match derivation with
  | .done =>
      rw [ProductTail.tokens, ProductTail.phrase, List.nil_append]
      rw [outcome_productTail, stops.2]
  | .more mark right tail =>
      have head := right.read behind (tail.tokens ++ rest) (tail.stopsCall stops)
      have others := tail.read behind (.ofOperands left mark.operator right.phrase) rest stops
      rw [ProductTail.tokens, ProductTail.phrase, List.cons_append, List.append_assoc]
      rw [outcome_productTail, mark.nextOperator?, Option.filter_some, if_pos mark.onLevel]
      simp only [List.tail_cons]
      rw [head, Outcome.andThen_ok, others]
termination_by structural derivation

theorem Call.read (derivation : Call) (behind : Span) (rest : List Token)
    (stops : StopsCall rest) :
    outcome (call behind (derivation.tokens ++ rest)) = .ok (derivation.phrase, rest) := by
  match derivation with
  | .mk callee tail =>
      have head := callee.read behind (tail.tokens ++ rest) (tail.stopsMember stops)
      have others := tail.read behind callee.phrase rest stops.2
      rw [Call.tokens, Call.phrase, List.append_assoc]
      rw [outcome_call, head, Outcome.andThen_ok, others]
termination_by structural derivation

theorem CallTail.read (derivation : CallTail) (behind : Span) (callee : Phrase)
    (rest : List Token) (stops : nextKind rest ≠ .openParen) :
    outcome (callTail behind callee (derivation.tokens ++ rest)) =
      .ok (derivation.phrase callee, rest) := by
  match derivation with
  | .done =>
      rw [CallTail.tokens, CallTail.phrase, List.nil_append]
      rw [outcome_callTail, if_neg stops]
  | .more listed tail =>
      have head := listed.read behind (tail.tokens ++ rest)
      have others := tail.read behind
        (.call callee listed.phrases (callee.span.merge listed.closingSpan)) rest stops
      have atParen : nextKind (listed.tokens ++ (tail.tokens ++ rest)) = .openParen := by
        obtain ⟨opening, _, _⟩ := listed
        exact opening.ofKind
      rw [CallTail.tokens, CallTail.phrase, List.append_assoc]
      rw [outcome_callTail, if_pos atParen, head, Outcome.andThen_ok, others]
termination_by structural derivation

theorem ArgumentList.read (derivation : ArgumentList) (behind : Span) (rest : List Token) :
    outcome (argumentList behind (derivation.tokens ++ rest)) =
      .ok ((derivation.phrases, derivation.closingSpan), rest) := by
  match derivation with
  | .mk opening listed closing =>
      have inside := listed.read behind (closing.token :: rest) closing.ofKind
      rw [ArgumentList.tokens, ArgumentList.phrases, ArgumentList.closingSpan,
        List.cons_append, List.append_assoc, List.cons_append, List.nil_append]
      rw [outcome_argumentList, outcome_expect_of_kind _ _ opening.ofKind, Outcome.andThen_ok,
        inside, Outcome.andThen_ok, outcome_expect_of_kind _ _ closing.ofKind,
        Outcome.andThen_ok]
termination_by structural derivation

theorem Arguments.read (derivation : Arguments) (behind : Span) (rest : List Token)
    (closes : nextKind rest = .closeParen) :
    outcome (arguments behind (derivation.tokens ++ rest)) = .ok (derivation.phrases, rest) := by
  match derivation with
  | .none =>
      rw [Arguments.tokens, Arguments.phrases, List.nil_append]
      rw [outcome_arguments, if_pos closes]
  | .some first tail =>
      have head := first.read behind (tail.tokens ++ rest)
        (first.stopsBefore_of_ends (tail.endsExpression_nextKind closes))
      have others := tail.read behind rest closes
      have starts := first.starts (tail.tokens ++ rest)
      have notClose :
          ¬ nextKind (first.tokens ++ (tail.tokens ++ rest)) = .closeParen := by
        intro atClose
        rw [atClose] at starts
        cases starts
      rw [Arguments.tokens, Arguments.phrases, List.append_assoc]
      rw [outcome_arguments, if_neg notClose, head, Outcome.andThen_ok, others,
        Outcome.andThen_ok]
termination_by structural derivation

theorem ArgumentsTail.read (derivation : ArgumentsTail) (behind : Span) (rest : List Token)
    (closes : nextKind rest = .closeParen) :
    outcome (argumentsTail behind (derivation.tokens ++ rest)) =
      .ok (derivation.phrases, rest) := by
  match derivation with
  | .done =>
      rw [ArgumentsTail.tokens, ArgumentsTail.phrases, List.nil_append]
      rw [outcome_argumentsTail, closes]
      rfl
  | .more comma argument tail =>
      have head := argument.read behind (tail.tokens ++ rest)
        (argument.stopsBefore_of_ends (tail.endsExpression_nextKind closes))
      have others := tail.read behind rest closes
      rw [ArgumentsTail.tokens, ArgumentsTail.phrases, List.cons_append, List.append_assoc]
      rw [outcome_argumentsTail, nextKind_cons, if_pos comma.ofKind, List.tail_cons, head,
        Outcome.andThen_ok, others, Outcome.andThen_ok]
termination_by structural derivation

theorem Member.read (derivation : Member) (behind : Span) (rest : List Token)
    (stops : StopsMember rest) :
    outcome (member behind (derivation.tokens ++ rest)) = .ok (derivation.phrase, rest) := by
  match derivation with
  | .mk object tail =>
      have head := object.read behind (tail.tokens ++ rest)
      have others := tail.read behind object.phrase rest stops
      rw [Member.tokens, Member.phrase, List.append_assoc]
      rw [outcome_member, head, Outcome.andThen_ok, others]
termination_by structural derivation

theorem MemberTail.read (derivation : MemberTail) (behind : Span) (object : Phrase)
    (rest : List Token) (stops : StopsMember rest) :
    outcome (memberTail behind object (derivation.tokens ++ rest)) =
      .ok (derivation.phrase object, rest) := by
  match derivation with
  | .done =>
      rw [MemberTail.tokens, MemberTail.phrase, List.nil_append]
      rw [outcome_memberTail, if_neg stops.1, if_neg stops.2]
  | .named dot name tail =>
      have others := tail.read behind
        (.member object (.identifier name.token.text name.token.span) false
          (object.span.merge name.token.span)) rest stops
      rw [MemberTail.tokens, MemberTail.phrase, List.cons_append, List.cons_append]
      rw [outcome_memberTail, nextKind_cons, if_pos dot.ofKind, List.tail_cons,
        outcome_expect_of_kind _ _ name.ofKind, Outcome.andThen_ok, others]
  | .computed opening property closing tail =>
      have inside := property.read behind (closing.token :: (tail.tokens ++ rest))
        (property.stopsBefore_terminal closing _ rfl)
      have others := tail.read behind
        (.member object property.phrase true (object.span.merge closing.token.span)) rest stops
      rw [MemberTail.tokens, MemberTail.phrase, List.cons_append, List.append_assoc,
        List.cons_append]
      rw [outcome_memberTail, nextKind_cons, opening.ofKind, if_neg (by decide),
        if_pos rfl, List.tail_cons, inside, Outcome.andThen_ok,
        outcome_expect_of_kind _ _ closing.ofKind, Outcome.andThen_ok, others]
termination_by structural derivation

theorem Operand.read (derivation : Operand) (behind : Span) (rest : List Token) :
    outcome (operand behind (derivation.tokens ++ rest)) = .ok (derivation.phrase, rest) := by
  match derivation with
  | .name name =>
      rw [Operand.tokens, Operand.phrase, List.cons_append, List.nil_append]
      rw [outcome_operand_cons, if_pos name.ofKind]
  | .number numeral =>
      rw [Operand.tokens, Operand.phrase, List.cons_append, List.nil_append]
      rw [outcome_operand_cons, numeral.ofKind, if_neg (by decide), if_pos rfl, numeral.reads]
  | .group opening value closing =>
      have inside := value.read behind (closing.token :: rest)
        (value.stopsBefore_terminal closing rest rfl)
      rw [Operand.tokens, Operand.phrase, List.cons_append, List.append_assoc,
        List.cons_append, List.nil_append]
      rw [outcome_operand_cons, opening.ofKind, if_neg (by decide), if_neg (by decide),
        if_pos rfl, inside, Outcome.andThen_ok, outcome_expect_of_kind _ _ closing.ofKind,
        Outcome.andThen_ok]
termination_by structural derivation

end

/-! ## Statements -/

/-- The names of parameters are all there if the phrases are names. -/
theorem parameterNames_eq_ok {phrases : List Phrase}
    (areNames : ∀ phrase ∈ phrases, phrase.name?.isSome) :
    parameterNames phrases = .ok (phrases.filterMap Phrase.name?) := by
  induction phrases with
  | nil => rfl
  | cons phrase rest inductionHypothesis =>
      obtain ⟨name, found⟩ := Option.isSome_iff_exists.1 (areNames phrase (by simp))
      have others := inductionHypothesis fun other member => areNames other (by simp [member])
      rw [parameterNames, found, others, List.filterMap_cons_some found]
      rfl

theorem dropSemicolon_of_mayFollow {tokens : List Token}
    (follows : mayFollowStatement (nextKind tokens) = true) : dropSemicolon tokens = tokens := by
  cases tokens with
  | nil => rfl
  | cons token rest =>
      refine if_neg fun atSemicolon => ?_
      rw [nextKind_cons, atSemicolon] at follows
      cases follows

/-- An expression that starts a statement is read with the semicolon behind it. -/
theorem outcome_statement_of_startsExpression {behind : Span} {tokens : List Token}
    (starts : startsExpression (nextKind tokens) = true) :
    outcome (statement behind tokens) =
      (outcome (expression behind tokens)).andThen fun value rest =>
        .ok (value, dropSemicolon rest) := by
  refine outcome_statement_of_noKeyword behind ?_
  revert starts
  cases nextKind tokens <;> first | exact fun _ => rfl | (intro starts; cases starts)

mutual

theorem Statement.read (derivation : Statement) (behind : Span) (rest : List Token)
    (separated : derivation.Separated) (may : derivation.MayPrecede (nextKind rest))
    (follows : mayFollowStatement (nextKind rest) = true) :
    outcome (statement behind (derivation.tokens ++ rest)) = .ok (derivation.phrase, rest) := by
  match derivation with
  | .declaration keyword name semicolon =>
      rw [Statement.tokens, Statement.phrase, List.cons_append, List.cons_append,
        List.cons_append, List.nil_append, outcome_statement_cons, keyword.ofKind]
      simp only
      rw [outcome_variableDeclaration, outcome_expect_of_kind _ _ name.ofKind,
        Outcome.andThen_ok, nextKind_cons, if_pos semicolon.ofKind,
        outcome_expect_of_kind _ _ semicolon.ofKind, Outcome.andThen_ok]
      rfl
  | .initialized constant keyword name equals value semicolon =>
      have inside := value.read behind (semicolon.token :: rest)
        (value.stopsBefore_terminal semicolon rest rfl)
      have declared :
          outcome (variableDeclaration behind constant keyword.token
            (name.token :: equals.token :: (value.tokens ++ semicolon.token :: rest))) =
          .ok (.variableDeclaration name.token.text (some value.phrase) constant
            (keyword.token.span.merge semicolon.token.span), rest) := by
        rw [outcome_variableDeclaration, outcome_expect_of_kind _ _ name.ofKind,
          Outcome.andThen_ok, nextKind_cons, equals.ofKind, if_neg (by decide),
          outcome_expect_of_kind _ _ equals.ofKind, Outcome.andThen_ok, inside,
          Outcome.andThen_ok, outcome_expect_of_kind _ _ semicolon.ofKind, Outcome.andThen_ok]
      rw [Statement.tokens, Statement.phrase, List.cons_append, List.cons_append,
        List.cons_append, List.append_assoc, List.cons_append, List.nil_append,
        outcome_statement_cons, keyword.ofKind]
      cases constant <;> exact declared
  | .function keyword name parameters opening body closing =>
      have heading := parameters.list.read behind
        (opening.token :: (body.tokens ++ closing.token :: rest))
      have inside := body.read behind .functionBody (closing.token :: rest) separated
        (by rw [nextKind_cons, closing.ofKind]; rfl)
      rw [Statement.tokens, Statement.phrase, List.cons_append, List.cons_append,
        List.append_assoc, List.cons_append, List.append_assoc, List.cons_append,
        List.nil_append, outcome_statement_cons, keyword.ofKind]
      simp only
      rw [outcome_functionDeclaration, outcome_expect_of_kind _ _ name.ofKind,
        Outcome.andThen_ok, heading, Outcome.andThen_ok,
        parameterNames_eq_ok parameters.areNames]
      simp only
      rw [outcome_expect_of_kind _ _ opening.ofKind, Outcome.andThen_ok, inside,
        Outcome.andThen_ok, outcome_expect_of_kind _ _ closing.ofKind, Outcome.andThen_ok]
      rfl
  | .terminated value semicolon =>
      have inside := value.read behind (semicolon.token :: rest)
        (value.stopsBefore_terminal semicolon rest rfl)
      have dropped : dropSemicolon (semicolon.token :: rest) = rest := if_pos semicolon.ofKind
      rw [Statement.tokens, Statement.phrase, List.append_assoc, List.cons_append,
        List.nil_append, outcome_statement_of_startsExpression (value.starts _), inside,
        Outcome.andThen_ok, dropped]
  | .unterminated value =>
      have inside := value.read behind rest (value.stopsBefore_of_mayFollow follows may)
      rw [Statement.tokens, Statement.phrase,
        outcome_statement_of_startsExpression (value.starts _), inside, Outcome.andThen_ok,
        dropSemicolon_of_mayFollow follows]
termination_by structural derivation

theorem Statements.read (derivation : Statements) (behind : Span) (block : Block)
    (rest : List Token) (separated : derivation.Separated)
    (ends : block.endsBefore (nextKind rest) = true) :
    outcome (statements behind block (derivation.tokens ++ rest)) =
      .ok (derivation.phrases, rest) := by
  match derivation with
  | .none =>
      rw [Statements.tokens, Statements.phrases, List.nil_append, outcome_statements, if_pos ends]
  | .more first others =>
      obtain ⟨inFirst, between, inOthers⟩ := separated
      have head := first.read behind (others.tokens ++ rest) inFirst
        (first.mayPrecede_append between ends) (others.mayFollow ends)
      have tail := others.read behind block rest inOthers ends
      have goesOn :=
        not_endsBefore_of_startsStatement block (first.starts (others.tokens ++ rest))
      rw [Statements.tokens, Statements.phrases, List.append_assoc, outcome_statements, goesOn,
        head, Outcome.andThen_ok, tail, Outcome.andThen_ok]
      rfl
termination_by structural derivation

end

end NanoScript.Grammar
