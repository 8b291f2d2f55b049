import NanoScript.Proofs.Grammar.Unambiguous
import NanoScript.Proofs.Reading.Completeness
import NanoScript.Proofs.Reading.Soundness

/-!
Contract: programs are read exactly as the grammar derives them.

A list of tokens is read as a program if and only if it contains an end-of-input mark and the
tokens before the first one have a derivation.  The derivation is then the only one, and what is
read is its phrase.

No derivation contains an end-of-input mark, so that the mark that reading stops at is the first
one of the list.
-/

namespace NanoScript.Grammar

open Reading

/-! ## No derivation contains an end-of-input mark -/

/-- No token is an end-of-input mark. -/
def unmarked (tokens : List Token) : Bool :=
  tokens.all fun token => token.kind ≠ .endOfInput

@[simp] theorem unmarked_nil : unmarked [] = true :=
  rfl

@[simp] theorem unmarked_append (left right : List Token) :
    unmarked (left ++ right) = (unmarked left && unmarked right) :=
  List.all_append

@[simp] theorem unmarked_cons (token : Token) (rest : List Token) :
    unmarked (token :: rest) = (decide (token.kind ≠ .endOfInput) && unmarked rest) :=
  List.all_cons

@[simp] theorem Terminal.kind_eq {kind : Token.Kind} (terminal : Terminal kind) :
    terminal.token.kind = kind :=
  terminal.ofKind

mutual

@[simp] theorem Expression.unmarked_tokens (derivation : Expression) :
    unmarked derivation.tokens = true := by
  match derivation with
  | .plain whole => exact whole.unmarked_tokens
  | .assignment target equals value =>
      simp [Expression.tokens, target.unmarked_tokens, value.unmarked_tokens]
termination_by structural derivation

theorem ObjectLiteral.unmarked_tokens (derivation : ObjectLiteral) :
    unmarked derivation.tokens = true := by
  match derivation with
  | .literal opening entries closing =>
      simp [ObjectLiteral.tokens, entries.unmarked_tokens]
  | .sum whole => exact whole.unmarked_tokens
termination_by structural derivation

theorem Entries.unmarked_tokens (derivation : Entries) : unmarked derivation.tokens = true := by
  match derivation with
  | .none => rfl
  | .last entry => exact entry.unmarked_tokens
  | .more entry comma rest =>
      simp [Entries.tokens, entry.unmarked_tokens, rest.unmarked_tokens]
termination_by structural derivation

theorem Entry.unmarked_tokens (derivation : Entry) : unmarked derivation.tokens = true := by
  match derivation with
  | .shorthand key => simp [Entry.tokens]
  | .keyed key colon value => simp [Entry.tokens, value.unmarked_tokens]
termination_by structural derivation

theorem Sum.unmarked_tokens (derivation : Sum) : unmarked derivation.tokens = true := by
  match derivation with
  | .mk first tail => simp [Sum.tokens, first.unmarked_tokens, tail.unmarked_tokens]
termination_by structural derivation

theorem SumTail.unmarked_tokens (derivation : SumTail) : unmarked derivation.tokens = true := by
  match derivation with
  | .done => rfl
  | .more mark right rest =>
      simp [SumTail.tokens, mark.ofKind, right.unmarked_tokens, rest.unmarked_tokens]
termination_by structural derivation

theorem Product.unmarked_tokens (derivation : Product) : unmarked derivation.tokens = true := by
  match derivation with
  | .mk first tail => simp [Product.tokens, first.unmarked_tokens, tail.unmarked_tokens]
termination_by structural derivation

theorem ProductTail.unmarked_tokens (derivation : ProductTail) :
    unmarked derivation.tokens = true := by
  match derivation with
  | .done => rfl
  | .more mark right rest =>
      simp [ProductTail.tokens, mark.ofKind, right.unmarked_tokens, rest.unmarked_tokens]
termination_by structural derivation

theorem Call.unmarked_tokens (derivation : Call) : unmarked derivation.tokens = true := by
  match derivation with
  | .mk callee tail => simp [Call.tokens, callee.unmarked_tokens, tail.unmarked_tokens]
termination_by structural derivation

theorem CallTail.unmarked_tokens (derivation : CallTail) : unmarked derivation.tokens = true := by
  match derivation with
  | .done => rfl
  | .more arguments rest =>
      simp [CallTail.tokens, arguments.unmarked_tokens, rest.unmarked_tokens]
termination_by structural derivation

theorem ArgumentList.unmarked_tokens (derivation : ArgumentList) :
    unmarked derivation.tokens = true := by
  match derivation with
  | .mk opening arguments closing => simp [ArgumentList.tokens, arguments.unmarked_tokens]
termination_by structural derivation

theorem Arguments.unmarked_tokens (derivation : Arguments) :
    unmarked derivation.tokens = true := by
  match derivation with
  | .none => rfl
  | .some first rest => simp [Arguments.tokens, first.unmarked_tokens, rest.unmarked_tokens]
termination_by structural derivation

theorem ArgumentsTail.unmarked_tokens (derivation : ArgumentsTail) :
    unmarked derivation.tokens = true := by
  match derivation with
  | .done => rfl
  | .more comma argument rest =>
      simp [ArgumentsTail.tokens, argument.unmarked_tokens, rest.unmarked_tokens]
termination_by structural derivation

theorem Member.unmarked_tokens (derivation : Member) : unmarked derivation.tokens = true := by
  match derivation with
  | .mk object tail => simp [Member.tokens, object.unmarked_tokens, tail.unmarked_tokens]
termination_by structural derivation

theorem MemberTail.unmarked_tokens (derivation : MemberTail) :
    unmarked derivation.tokens = true := by
  match derivation with
  | .done => rfl
  | .named dot name rest => simp [MemberTail.tokens, rest.unmarked_tokens]
  | .computed opening property closing rest =>
      simp [MemberTail.tokens, property.unmarked_tokens, rest.unmarked_tokens]
termination_by structural derivation

theorem Operand.unmarked_tokens (derivation : Operand) : unmarked derivation.tokens = true := by
  match derivation with
  | .name name => simp [Operand.tokens]
  | .number numeral => simp [Operand.tokens, numeral.ofKind]
  | .group opening value closing => simp [Operand.tokens, value.unmarked_tokens]
termination_by structural derivation

end

theorem declarationKeyword_ne_endOfInput (constant : Bool) :
    declarationKeyword constant ≠ .endOfInput := by
  cases constant <;> decide

mutual

theorem Statement.unmarked_tokens (derivation : Statement) : unmarked derivation.tokens = true := by
  match derivation with
  | .declaration keyword name semicolon => simp [Statement.tokens]
  | .initialized constant keyword name equals value semicolon =>
      simp [Statement.tokens, declarationKeyword_ne_endOfInput]
  | .function keyword name parameters opening body closing =>
      simp [Statement.tokens, parameters.list.unmarked_tokens, body.unmarked_tokens]
  | .terminated value semicolon => simp [Statement.tokens]
  | .unterminated value => exact value.unmarked_tokens
termination_by structural derivation

theorem Statements.unmarked_tokens (derivation : Statements) :
    unmarked derivation.tokens = true := by
  match derivation with
  | .none => rfl
  | .more first rest =>
      simp [Statements.tokens, first.unmarked_tokens, rest.unmarked_tokens]
termination_by structural derivation

end

/-! ## The first end-of-input mark -/

/-- The tokens before the first end-of-input mark. -/
def beforeMark (tokens : List Token) : List Token :=
  tokens.takeWhile fun token => token.kind ≠ .endOfInput

/-- The first end-of-input mark. -/
def firstMark? (tokens : List Token) : Option Token :=
  tokens.find? fun token => token.kind = .endOfInput

theorem firstMark?_unmarked {tokens : List Token} (isUnmarked : unmarked tokens = true)
    (mark : Terminal .endOfInput) (rest : List Token) :
    firstMark? (tokens ++ mark.token :: rest) = some mark.token ∧
      beforeMark (tokens ++ mark.token :: rest) = tokens := by
  induction tokens with
  | nil => exact ⟨by simp [firstMark?], by simp [beforeMark]⟩
  | cons token others inductionHypothesis =>
      rw [unmarked_cons, Bool.and_eq_true] at isUnmarked
      obtain ⟨differs, othersUnmarked⟩ := isUnmarked
      obtain ⟨found, before⟩ := inductionHypothesis othersUnmarked
      have notMark : token.kind ≠ .endOfInput := of_decide_eq_true differs
      refine ⟨?_, ?_⟩
      · rw [firstMark?, List.cons_append, List.find?_cons_of_neg (by simp [notMark])]
        exact found
      · rw [beforeMark, List.cons_append, List.takeWhile_cons_of_pos (by simp [notMark])]
        exact congrArg (token :: ·) before

theorem split_at_firstMark {tokens : List Token} {mark : Token}
    (found : firstMark? tokens = some mark) :
    mark.kind = .endOfInput ∧ ∃ rest, tokens = beforeMark tokens ++ mark :: rest := by
  induction tokens with
  | nil => cases found
  | cons token others inductionHypothesis =>
      by_cases isMark : token.kind = .endOfInput
      · rw [firstMark?, List.find?_cons_of_pos (by simp [isMark])] at found
        cases found
        refine ⟨isMark, others, ?_⟩
        rw [beforeMark, List.takeWhile_cons_of_neg (by simp [isMark])]
        rfl
      · rw [firstMark?, List.find?_cons_of_neg (by simp [isMark])] at found
        obtain ⟨ofKind, rest, split⟩ := inductionHypothesis found
        refine ⟨ofKind, rest, ?_⟩
        rw [beforeMark, List.takeWhile_cons_of_pos (by simp [isMark])]
        exact congrArg (token :: ·) split

/-! ## Programs -/

/-- A program that is read has a derivation. -/
theorem Program.exists_of_ofTokens {tokens : List Token} {program : Phrase}
    (reads : Phrase.ofTokens tokens = .ok program) :
    ∃ mark, firstMark? tokens = some mark ∧
      ∃ derivation : Program, derivation.tokens = beforeMark tokens ∧
        derivation.phrase mark.span.stop = program := by
  rw [Phrase.ofTokens_eq] at reads
  cases yields : (outcome (Reading.statements (behindAll tokens) .program tokens)).andThen
      fun body rest =>
        (outcome (expect (behindAll tokens) .endOfInput .programEnd rest)).andThen
          fun last rest => .ok (Phrase.program body ⟨0, last.span.stop⟩, rest) with
  | error error =>
      rw [yields] at reads
      cases reads
  | ok result =>
      rw [yields] at reads
      cases reads
      obtain ⟨body, afterBody, first, yields⟩ := Outcome.andThen_eq_ok_iff.1 yields
      obtain ⟨_, later, second, done⟩ := Outcome.andThen_eq_ok_iff.1 yields
      obtain ⟨derivation, split, same, separated, _⟩ := exists_statements first
      obtain ⟨mark, markSame, markSplit⟩ := exists_terminal second
      subst markSame
      cases done
      rw [markSplit] at split
      obtain ⟨found, before⟩ := firstMark?_unmarked derivation.unmarked_tokens mark later
      rw [← split] at found before
      refine ⟨mark.token, found, ⟨derivation, separated⟩, before.symm, ?_⟩
      rw [Program.phrase, same]

/-- A program that has a derivation is read. -/
theorem Program.read (derivation : Program) {tokens : List Token} {mark : Token}
    (found : firstMark? tokens = some mark)
    (derived : derivation.tokens = beforeMark tokens) :
    Phrase.ofTokens tokens = .ok (derivation.phrase mark.span.stop) := by
  obtain ⟨ofKind, rest, split⟩ := split_at_firstMark found
  have ends : Block.program.endsBefore (nextKind (mark :: rest)) = true := by
    rw [nextKind_cons, ofKind]
    rfl
  have body := derivation.statements.read (behindAll tokens) .program (mark :: rest)
    derivation.separated ends
  rw [show derivation.statements.tokens = beforeMark tokens from derived, ← split] at body
  rw [Phrase.ofTokens_eq, body, Outcome.andThen_ok, outcome_expect_of_kind _ _ ofKind,
    Outcome.andThen_ok]
  rfl

/-- No two programs have the same tokens. -/
theorem Program.unambiguous {left right : Program} (same : left.tokens = right.tokens) :
    left = right := by
  have ends : Block.program.endsBefore (nextKind []) = true := rfl
  obtain ⟨statements, _⟩ := left.statements.unambiguous right.statements .program
    (congrArg (· ++ []) same) left.separated right.separated ends ends
  exact Program.ext statements

end NanoScript.Grammar

namespace NanoScript

open Grammar

/-- Tokens are read as a program if and only if there is an end-of-input mark and the tokens before
the first one have a derivation; the derivation is the only one, and the program is its phrase. -/
theorem Phrase.ofTokens_eq_ok_iff (tokens : List Token) (program : Phrase) :
    Phrase.ofTokens tokens = .ok program ↔
      ∃ mark, firstMark? tokens = some mark ∧
        ∃ derivation : Grammar.Program,
          (derivation.tokens = beforeMark tokens ∧ derivation.phrase mark.span.stop = program) ∧
            ∀ other : Grammar.Program, other.tokens = beforeMark tokens → other = derivation := by
  constructor
  · intro reads
    obtain ⟨mark, found, derivation, derived, same⟩ := Program.exists_of_ofTokens reads
    refine ⟨mark, found, derivation, ⟨derived, same⟩, ?_⟩
    intro other otherDerived
    exact Program.unambiguous (otherDerived.trans derived.symm)
  · rintro ⟨mark, found, derivation, ⟨derived, same⟩, _⟩
    rw [derivation.read found derived, same]

end NanoScript
