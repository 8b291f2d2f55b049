import NanoScript.Proofs.Reading.Offence
import NanoScript.Proofs.Reading.Progress

/-!
Contract: reading ends at the last token at the latest.

Owns:
- tokens without an end-of-input mark are no program;
- to ask for a token behind the last one is to fail, at the place behind all tokens;
- with no mark among the tokens, there is no other way to fail at the end of input;
- the theorem on all lists of tokens: reading makes progress and ends.

Whether a script says of a failure of its own that the input has ended is seen from its body, as
progress is.
-/

namespace NanoScript

theorem SyntaxError.atToken_ne_unexpectedEnd {token : Token} (notMark : token.kind ≠ .endOfInput)
    (expected other : Expectation) (span : Span) :
    SyntaxError.atToken token expected ≠ .unexpectedEnd other span := by
  rw [atToken, if_neg notMark]
  exact nofun

namespace Reading

open Relation

variable {α : Type} {behind : Span}

/-! ## Lists without an end-of-input mark -/

theorem ofTokens_eq_read (tokens : List Token) :
    Phrase.ofTokens tokens =
      (Procedure.program.read (behindAll tokens) tokens).map Prod.fst :=
  Phrase.ofTokens_eq tokens

/-- Tokens without an end-of-input mark are no program. -/
theorem exists_error_of_noMark {tokens : List Token}
    (noMark : ∀ token ∈ tokens, token.kind ≠ .endOfInput) :
    ∃ error, Phrase.ofTokens tokens = .error error := by
  cases reads : Phrase.ofTokens tokens with
  | error error => exact ⟨error, rfl⟩
  | ok program =>
      obtain ⟨mark, found, _⟩ := Grammar.Program.exists_of_ofTokens reads
      obtain ⟨ofKind, rest, split⟩ := Grammar.split_at_firstMark found
      refine absurd ofKind (noMark mark ?_)
      rw [split]
      exact List.mem_append_right _ List.mem_cons_self

/-! ## Tokens asked for behind the last one -/

/-- What a script comes to after a step, it comes to. -/
theorem Runs.of_moves {script later : Script α} {tokens rest : List Token} {result : Outcome α}
    (moves : Moves behind (script, tokens) (later, rest)) (runs : Runs behind later rest result) :
    Runs behind script tokens result := by
  cases moves with
  | look => exact .look runs
  | advance => exact .advance runs
  | request => exact .request runs
  | enter first => exact .enter first runs

theorem Runs.of_reaches {state reached : Script α × List Token} {result : Outcome α}
    (reaches : ReflTransGen (Moves behind) state reached)
    (runs : Runs behind reached.1 reached.2 result) : Runs behind state.1 state.2 result := by
  induction reaches using ReflTransGen.head_induction_on with
  | refl => exact runs
  | head first _ inductionHypothesis => exact .of_moves first inductionHypothesis

/-- The failure of a procedure is the failure of the one that enters it. -/
theorem Enters.runs_error {outer inner : Procedure × List Token} {error : SyntaxError}
    (enters : Enters behind outer inner) (fails : Runs behind inner.1.body inner.2 (.error error)) :
    Runs behind outer.1.body outer.2 (.error error) := by
  obtain ⟨next, reaches⟩ := enters
  exact .of_reaches reaches (.enterFails fails)

theorem runs_error_of_entered {outer inner : Procedure × List Token} {error : SyntaxError}
    (entered : ReflTransGen (Enters behind) outer inner)
    (fails : Runs behind inner.1.body inner.2 (.error error)) :
    Runs behind outer.1.body outer.2 (.error error) := by
  induction entered using ReflTransGen.head_induction_on with
  | refl => exact fails
  | head first _ inductionHypothesis => exact first.runs_error inductionHypothesis

/-- Wherever a token behind the last one is asked for, the reading of the program fails there. -/
theorem RunsDry.ofTokens_eq {tokens : List Token} {expected : Expectation}
    (dry : RunsDry tokens expected) :
    Phrase.ofTokens tokens = .error (.unexpectedEnd expected (behindAll tokens)) := by
  obtain ⟨state, entered, next, asks⟩ := dry
  have fails := runs_error_of_entered entered (.of_reaches asks .requestBehind)
  rw [ofTokens_eq_read, fails.read_eq]
  rfl

/-- As long as it takes no end-of-input mark, a script itself says of no failure that the input has
ended. -/
def Script.ReportsNoEnd : Script α → Prop
  | .yield _ => True
  | .fail error => ∀ expected span, error ≠ .unexpectedEnd expected span
  | .look next => ∀ token, (next token).ReportsNoEnd
  | .advance next => ∀ token, (next token).ReportsNoEnd
  | .request _ next => ∀ token : Token, token.kind ≠ .endOfInput → (next token).ReportsNoEnd
  | .enter _ next => ∀ value, (next value).ReportsNoEnd

namespace Script

@[simp] theorem reportsNoEnd_ite {condition : Prop} [Decidable condition] (left right : Script α) :
    (if condition then left else right).ReportsNoEnd ↔
      (condition → left.ReportsNoEnd) ∧ (¬ condition → right.ReportsNoEnd) := by
  split <;> simp [*]

@[simp] theorem reportsNoEnd_lookKind (next : Token.Kind → Script α) :
    (lookKind next).ReportsNoEnd ↔ ∀ kind, (next kind).ReportsNoEnd :=
  ⟨fun reports kind => reports (some ⟨kind, "", .empty 0⟩), fun reports _ => reports _⟩

theorem reportsNoEnd_lookOperator {next : Option Operator → Script α}
    (reports : ∀ operator, (next operator).ReportsNoEnd) : (lookOperator next).ReportsNoEnd :=
  fun _ => reports _

@[simp] theorem reportsNoEnd_expectKind (kind : Token.Kind) (expected : Expectation)
    (next : Token → Script α) :
    (expectKind kind expected next).ReportsNoEnd ↔
      ∀ token : Token, token.kind ≠ .endOfInput → token.kind = kind →
        (next token).ReportsNoEnd := by
  simp +contextual [expectKind, ReportsNoEnd, SyntaxError.atToken_ne_unexpectedEnd]

end Script

theorem reportsNoEnd_body (procedure : Procedure) : procedure.body.ReportsNoEnd := by
  cases procedure with
  | statement =>
      rw [Procedure.body, Script.reportsNoEnd_lookKind]
      intro kind
      cases kind <;> simp [Script.ReportsNoEnd]
  | functionDeclaration keyword =>
      rw [Procedure.body, Script.reportsNoEnd_expectKind]
      intro name _ _ list
      cases names : parameterNames list.1 with
      | error error =>
          obtain ⟨span, rfl⟩ := exists_of_parameterNames_error names
          simp [names, Script.ReportsNoEnd]
      | ok => simp [names, Script.ReportsNoEnd]
  | sumTail left =>
      rw [Procedure.body]
      refine Script.reportsNoEnd_lookOperator fun operator => ?_
      cases operator.filter Operator.isAdditive <;> simp [Script.ReportsNoEnd]
  | productTail left =>
      rw [Procedure.body]
      refine Script.reportsNoEnd_lookOperator fun operator => ?_
      cases operator.filter Operator.isMultiplicative <;> simp [Script.ReportsNoEnd]
  | operand =>
      intro token notMark
      cases reads : Number.read? token.text <;>
        simp [reads, Script.ReportsNoEnd, SyntaxError.atToken_ne_unexpectedEnd notMark]
  | _ => simp [Procedure.body, Script.ReportsNoEnd]

/-- The run of a script comes to ask for a token when none remains, or enters a procedure in which
one is asked for. -/
def DriesUp (behind : Span) (script : Script α) (tokens : List Token) (expected : Expectation) :
    Prop :=
  (∃ next, ReflTransGen (Moves behind) (script, tokens) (.request expected next, [])) ∨
    ∃ (inner : Procedure × List Token) (next : inner.1.Result → Script α),
      ReflTransGen (Moves behind) (script, tokens) (.enter inner.1 next, inner.2) ∧
        ∃ state, ReflTransGen (Enters behind) inner state ∧ AsksBehind behind state expected

namespace DriesUp

variable {script later : Script α} {tokens rest : List Token} {expected : Expectation}

theorem of_moves (moves : Moves behind (script, tokens) (later, rest))
    (driesUp : DriesUp behind later rest expected) : DriesUp behind script tokens expected := by
  rcases driesUp with ⟨next, reaches⟩ | ⟨inner, next, reaches, entered⟩
  · exact .inl ⟨next, .head moves reaches⟩
  · exact .inr ⟨inner, next, .head moves reaches, entered⟩

theorem of_body {procedure : Procedure} (driesUp : DriesUp behind procedure.body tokens expected) :
    ∃ state, ReflTransGen (Enters behind) (procedure, tokens) state ∧
      AsksBehind behind state expected := by
  rcases driesUp with asks | ⟨inner, next, reaches, state, entered, asks⟩
  · exact ⟨(procedure, tokens), .refl, asks⟩
  · exact ⟨state, .head ⟨next, reaches⟩ entered, asks⟩

theorem of_enter {procedure : Procedure} {next : procedure.Result → Script α}
    (driesUp : DriesUp behind procedure.body tokens expected) :
    DriesUp behind (.enter procedure next) tokens expected :=
  .inr ⟨(procedure, tokens), next, .refl, driesUp.of_body⟩

end DriesUp

/-- A run on tokens without a mark that says of its failure that the input has ended has asked for
a token behind the last one, and the failure points there. -/
theorem Runs.driesUp {script : Script α} {tokens : List Token} {result : Outcome α}
    (runs : Runs behind script tokens result) (reports : script.ReportsNoEnd)
    (noMark : ∀ token ∈ tokens, token.kind ≠ .endOfInput) {expected : Expectation} {span : Span}
    (fails : result = .error (.unexpectedEnd expected span)) :
    span = behind ∧ DriesUp behind script tokens expected := by
  induction runs with
  | yield => cases fails
  | fail =>
      cases fails
      exact absurd rfl (reports expected span)
  | look _ inductionHypothesis =>
      obtain ⟨place, driesUp⟩ := inductionHypothesis (reports _) noMark fails
      exact ⟨place, driesUp.of_moves .look⟩
  | advance _ inductionHypothesis =>
      obtain ⟨place, driesUp⟩ :=
        inductionHypothesis (reports _) (List.forall_mem_cons.1 noMark).2 fails
      exact ⟨place, driesUp.of_moves .advance⟩
  | request _ inductionHypothesis =>
      obtain ⟨notMark, noMark⟩ := List.forall_mem_cons.1 noMark
      obtain ⟨place, driesUp⟩ := inductionHypothesis (reports _ notMark) noMark fails
      exact ⟨place, driesUp.of_moves .request⟩
  | requestBehind =>
      cases fails
      exact ⟨rfl, .inl ⟨_, .refl⟩⟩
  | enter first _ _ inductionHypothesis =>
      obtain ⟨suffix, _⟩ := first.takes
      obtain ⟨place, driesUp⟩ := inductionHypothesis (reports _)
        (fun token member => noMark token (suffix.subset member)) fails
      exact ⟨place, driesUp.of_moves (.enter first)⟩
  | @enterFails _ procedure _ _ _ _ inductionHypothesis =>
      cases fails
      obtain ⟨place, driesUp⟩ := inductionHypothesis (reportsNoEnd_body procedure) noMark rfl
      exact ⟨place, driesUp.of_enter⟩

/-- Tokens without a mark fail at the end of the input just if a token behind the last one is asked
for. -/
theorem ofTokens_eq_unexpectedEnd_iff {tokens : List Token}
    (noMark : ∀ token ∈ tokens, token.kind ≠ .endOfInput) (expected : Expectation) (span : Span) :
    Phrase.ofTokens tokens = .error (.unexpectedEnd expected span) ↔
      RunsDry tokens expected ∧ span = behindAll tokens := by
  constructor
  · intro fails
    rw [ofTokens_eq_read] at fails
    have runs := runs_iff.2 (eq_error_of_map _ fails)
    obtain ⟨place, driesUp⟩ := runs.driesUp (reportsNoEnd_body .program) noMark rfl
    exact ⟨driesUp.of_body, place⟩
  · rintro ⟨dry, rfl⟩
    exact dry.ofTokens_eq

end Reading

open Reading

/-- Whatever the tokens are, reading makes progress and ends. -/
theorem Phrase.ofTokens_progresses_and_ends (given : List Token) :
    -- On whatever tokens remain, a procedure ends, and with nothing but what its reader yields.
    (∀ (procedure : Procedure) (tokens : List Token) (result : Outcome procedure.Result),
      Runs (behindAll given) procedure.body tokens result ↔
        procedure.read (behindAll given) tokens = result) ∧
    (∃ result, Runs (behindAll given) Procedure.program.body given result ∧
      ofTokens given = result.map Prod.fst) ∧
    -- If it succeeds, it has taken tokens from the front, and at least one unless it is a loop.
    (∀ (procedure : Procedure) (tokens : List Token) (value : procedure.Result)
      (rest : List Token), procedure.read (behindAll given) tokens = .ok (value, rest) →
        ∃ taken, tokens = taken ++ rest ∧ (procedure.mayTakeNone = false → taken ≠ [])) ∧
    -- What it enters has less left to it, and another round of a loop has fewer tokens.
    (∀ outer inner, Enters (behindAll given) outer inner →
      inner.1.weight inner.2 < outer.1.weight outer.2 ∧
        ∃ taken, outer.2 = taken ++ inner.2 ∧ ∀ loop, outer.1.loop? = some loop →
          inner.1.loop? = some loop → taken ≠ []) ∧
    -- There is no program without an end-of-input mark.
    ((∀ token ∈ given, token.kind ≠ .endOfInput) → ∃ error, ofTokens given = .error error) ∧
    -- To ask for a token behind the last one is to fail there.
    (∀ expected, RunsDry given expected →
      ofTokens given = .error (.unexpectedEnd expected (behindAll given))) ∧
    ((∀ token ∈ given, token.kind ≠ .endOfInput) → ∀ expected span,
      ofTokens given = .error (.unexpectedEnd expected span) →
        RunsDry given expected ∧ span = behindAll given) ∧
    (given = [] → behindAll given = ⟨0, 0⟩) ∧
    (∀ before last, given = before ++ [last] →
      behindAll given = ⟨last.span.stop, last.span.stop⟩) := by
  refine ⟨fun _ _ _ => runs_iff, ?_, fun _ _ _ _ => exists_taken_of_read, ?_,
    exists_error_of_noMark, fun _ => RunsDry.ofTokens_eq, ?_, ?_, ?_⟩
  · exact ⟨_, runs_read _ .program given, ofTokens_eq_read given⟩
  · intro outer inner enters
    exact ⟨enters.weight_lt, enters.exists_taken_of_round⟩
  · intro noMark expected span
    exact (ofTokens_eq_unexpectedEnd_iff noMark expected span).1
  · rintro rfl
    rfl
  · rintro before last rfl
    exact behindAll_concat before last

/-- A call that breaks off behind the comma after its second argument. -/
def unfinishedCall : List Token :=
  [⟨.identifier, "f", 0, 1⟩, ⟨.openParen, "(", 1, 2⟩, ⟨.identifier, "x", 2, 3⟩,
    ⟨.comma, ",", 3, 4⟩, ⟨.identifier, "y", 4, 5⟩, ⟨.comma, ",", 5, 6⟩]

/-- The call asks for a third argument behind its last comma; before that, the loop over its
arguments has made a round on the first comma and the second argument. -/
theorem unfinishedCall_progresses_and_ends :
    (∀ token ∈ unfinishedCall, token.kind ≠ .endOfInput) ∧
      Phrase.ofTokens unfinishedCall = .error (.unexpectedEnd .operand ⟨6, 6⟩) ∧
      RunsDry unfinishedCall .operand ∧
      (∃ value, Procedure.expression.read (behindAll unfinishedCall) (unfinishedCall.drop 4) =
          .ok (value, unfinishedCall.drop 5) ∧
        ∃ taken, unfinishedCall.drop 4 = taken ++ unfinishedCall.drop 5 ∧ taken ≠ []) ∧
      Enters (behindAll unfinishedCall) (.argumentsTail, unfinishedCall.drop 3)
          (.argumentsTail, unfinishedCall.drop 5) ∧
        ∃ taken, unfinishedCall.drop 3 = taken ++ unfinishedCall.drop 5 ∧ taken ≠ [] := by
  obtain ⟨ends, -, takes, rounds, -, -, asks, -⟩ :=
    Phrase.ofTokens_progresses_and_ends unfinishedCall
  have noMark : ∀ token ∈ unfinishedCall, token.kind ≠ .endOfInput := by decide
  have fails : Phrase.ofTokens unfinishedCall = .error (.unexpectedEnd .operand ⟨6, 6⟩) :=
    eq_error_of_map (fun _ => ()) (by decide +kernel)
  obtain ⟨value, yields⟩ : ∃ value,
      Procedure.expression.read (behindAll unfinishedCall) (unfinishedCall.drop 4) =
        .ok (value, unfinishedCall.drop 5) :=
    Outcome.exists_of_left (by decide +kernel)
  have round : Enters (behindAll unfinishedCall) (.argumentsTail, unfinishedCall.drop 3)
      (.argumentsTail, unfinishedCall.drop 5) :=
    ⟨_, .head .look (.head .advance (.head (.enter ((ends .expression _ _).2 yields)) .refl))⟩
  obtain ⟨first, firstSplit, firstNonempty⟩ := takes _ _ _ _ yields
  obtain ⟨-, second, secondSplit, secondNonempty⟩ := rounds _ _ round
  exact ⟨noMark, fails, (asks noMark _ _ fails).1,
    ⟨value, yields, first, firstSplit, firstNonempty rfl⟩,
    round, second, secondSplit, secondNonempty .arguments rfl rfl⟩

end NanoScript
