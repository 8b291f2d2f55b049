import NanoScript.Proofs.Reading.Foresight
import NanoScript.Proofs.Reading.Source

/-!
Contract: a syntax error is reported at the first token that cannot be right.

Owns:
- foresight of the readers for statements: what they read up to an offending token begins
  statements, or parameters that are no names, which are looked at only when all of them are read;
- the tokens of a source text are all different, so that a token tells its index;
- the theorem about source texts: the tokens before the offending one can be completed, those up to
  it cannot be.
-/

namespace NanoScript

namespace Reading

open Grammar

variable {α δ : Type}

/-! ## Completions -/

/-- The tokens can be completed to a derivation, or to what is refused for a parameter that is no
name. -/
def Completable (read : Reader α) (tokensOf : δ → List Token) (before : List Token) : Prop :=
  Begins tokensOf before ∨
    ∃ completion, AreWritten completion ∧ ∀ place others, ∃ span,
      read place (before ++ (completion ++ others)) = .error (.parameterNotAName span)

/-- A statement whose function bodies keep the rule for statements without a semicolon. -/
abbrev SeparatedStatement : Type :=
  { derivation : Statement // derivation.Separated }

namespace SeparatedStatement

/-- The tokens of a separated statement. -/
def tokens (statement : SeparatedStatement) : List Token :=
  statement.val.tokens

/-- A variable declaration with a value. -/
def initialized (constant : Bool) (keyword : Terminal (declarationKeyword constant))
    (name : Terminal .identifier) (equals : Terminal .equals) (value : Grammar.Expression)
    (semicolon : Terminal .semicolon) : SeparatedStatement :=
  ⟨.initialized constant keyword name equals value semicolon, trivial⟩

/-- A function declaration with a body that keeps the rule. -/
def function (keyword : Terminal .fnKeyword) (name : Terminal .identifier)
    (parameters : ParameterList) (opening : Terminal .openBrace) (body : Program)
    (closing : Terminal .closeBrace) : SeparatedStatement :=
  ⟨.function keyword name parameters opening body.statements closing, body.separated⟩

@[simp] theorem tokens_initialized (constant : Bool)
    (keyword : Terminal (declarationKeyword constant)) (name : Terminal .identifier)
    (equals : Terminal .equals) (value : Grammar.Expression) (semicolon : Terminal .semicolon) :
    (initialized constant keyword name equals value semicolon).tokens =
      keyword.token :: name.token :: equals.token :: (value.tokens ++ [semicolon.token]) :=
  rfl

@[simp] theorem tokens_function (keyword : Terminal .fnKeyword) (name : Terminal .identifier)
    (parameters : ParameterList) (opening : Terminal .openBrace) (body : Program)
    (closing : Terminal .closeBrace) :
    (function keyword name parameters opening body closing).tokens =
      keyword.token :: name.token ::
        (parameters.list.tokens ++ opening.token :: (body.tokens ++ [closing.token])) :=
  rfl

end SeparatedStatement

/-- An expression that is nothing but a name. -/
def nameExpression (name : Terminal .identifier) : Grammar.Expression :=
  .plain (.sum (.mk (.mk (.mk (.mk (.name name) .done) .done) .done) .done))

@[simp] theorem tokens_nameExpression (name : Terminal .identifier) :
    (nameExpression name).tokens = [name.token] :=
  rfl

/-- Parentheses without parameters. -/
def noParameters : ParameterList :=
  ⟨.mk (.sample .openParen) .none (.sample .closeParen), fun _ member => nomatch member⟩

@[simp] theorem tokens_noParameters :
    noParameters.list.tokens =
      [(Terminal.sample .openParen).token, (Terminal.sample .closeParen).token] :=
  rfl

/-- No statements at all. -/
def noStatements : Program :=
  ⟨.none, trivial⟩

@[simp] theorem tokens_noStatements : noStatements.tokens = [] :=
  rfl

/-- A statement can be completed. -/
abbrev CompletableStatement : List Token → Prop :=
  Completable (fun place others => outcome (statement place others)) SeparatedStatement.tokens

/-- The statements of a block can be completed. -/
abbrev CompletableBlock (block : Block) : List Token → Prop :=
  Completable (fun place others => outcome (statements place block others)) Program.tokens

/-! ## Statements -/

theorem foresees_dropSemicolon {viable : List Token → Prop} (value : Phrase)
    (tokens : List Token) :
    Foresees (fun _ others => .ok (value, dropSemicolon others)) viable tokens := by
  by_cases atSemicolon : nextKind tokens = .semicolon
  · obtain ⟨semicolon, split⟩ := exists_cons_of_nextKind atSemicolon (by decide)
    refine .behindToken semicolon (by decide) split (fun _ others => ?_) (.pure value)
    rw [dropSemicolon, if_pos semicolon.ofKind]
  · refine (Foresees.pure value).of_head fun _ others same => ?_
    rw [← nextKind_of_head? same] at atSemicolon
    cases others with
    | nil => rfl
    | cons first rest =>
        rw [nextKind_cons] at atSemicolon
        rw [dropSemicolon, if_neg atSemicolon]

theorem foresees_expressionStatement (tokens : List Token) :
    Foresees (fun place others =>
      (outcome (expression place others)).andThen fun value rest =>
        .ok (value, dropSemicolon rest))
      (Begins SeparatedStatement.tokens) tokens := by
  refine (foresees_expression tokens).andThen ?_ ?_
  · intro before _ begins
    exact begins.within (fun value => ⟨.unterminated value, trivial⟩) [] (by simp)
      fun _ _ split => by simp [SeparatedStatement.tokens, Statement.tokens, split]
  · intro behind value rest yields
    obtain ⟨derivation, split, _⟩ := exists_expression yields
    exact ⟨_, split, derivation.unmarked_tokens, foresees_dropSemicolon value rest⟩

theorem foresees_variableDeclaration (constant : Bool)
    (keyword : Terminal (declarationKeyword constant)) (tokens : List Token) :
    Foresees (fun place others =>
      outcome (variableDeclaration place constant keyword.token others))
      (fun before => Begins SeparatedStatement.tokens (keyword.token :: before)) tokens := by
  refine .of_eq (outcome_variableDeclaration · constant keyword.token)
    (.expect (by decide) ?_ fun name rest _ => ?_)
  · exact ⟨.initialized constant keyword (.sample _) (.sample _) (nameExpression (.sample _))
      (.sample _), _, rfl, by simp⟩
  have behindName : Begins SeparatedStatement.tokens [keyword.token, name.token] :=
    ⟨.initialized constant keyword name (.sample _) (nameExpression (.sample _)) (.sample _), _,
      rfl, by simp⟩
  refine .ite (fun _ => ?_) fun _ => ?_
  · refine .expect (by decide) behindName fun semicolon later _ => ?_
    cases constant with
    | false => exact .pure _
    | true => exact .refuse _ id
  · refine .expect (by decide) behindName fun equals later _ => ?_
    refine (foresees_expression later).chain Terminal.tokens
      [keyword.token, name.token, equals.token] (.initialized constant keyword name equals)
      (fun _ _ => rfl) (.sample .semicolon) (by simp [Terminal.tokens]) ?_
    intro behind phrase last yields
    obtain ⟨value, split, _⟩ := exists_expression yields
    exact ⟨value, split, value.unmarked_tokens, .close (by decide) (by decide) _⟩

/-- Parameters are refused only for one that is no name. -/
theorem exists_of_parameterNames_error {phrases : List Phrase} {error : SyntaxError}
    (refused : parameterNames phrases = .error error) :
    ∃ span, error = .parameterNotAName span := by
  induction phrases with
  | nil => cases refused
  | cons phrase rest inductionHypothesis =>
      cases name : phrase.name? with
      | none =>
          rw [parameterNames, name] at refused
          cases refused
          exact ⟨_, rfl⟩
      | some first =>
          rw [parameterNames, name] at refused
          cases others : parameterNames rest with
          | ok names =>
              rw [others] at refused
              cases refused
          | error cause =>
              rw [others] at refused
              cases refused
              exact inductionHypothesis others

/-- A function declaration whose parameters are names is read on from its body. -/
theorem outcome_functionDeclaration_body (behind : Span) (keyword : Token)
    (name : Terminal .identifier) (list : ArgumentList) {names : List String}
    (found : parameterNames list.phrases = .ok names) (opening : Terminal .openBrace)
    (rest : List Token) :
    outcome (functionDeclaration behind keyword
        (name.token :: (list.tokens ++ opening.token :: rest))) =
      (outcome (statements behind .functionBody rest)).andThen fun body rest =>
        (outcome (expect behind .closeBrace .bodyClosing rest)).andThen fun close rest =>
          .ok (.functionDeclaration name.token.text names body
            (keyword.span.merge close.span), rest) := by
  rw [outcome_functionDeclaration, outcome_expect_of_kind _ _ name.ofKind, Outcome.andThen_ok,
    list.read, Outcome.andThen_ok, found]
  simp only
  rw [outcome_expect_of_kind _ _ opening.ofKind, Outcome.andThen_ok]

/-- Whatever begins a parameter list is completed to names or refused. -/
theorem completable_of_begins_argumentList (keyword : Terminal .fnKeyword)
    (name : Terminal .identifier) {before : List Token}
    (begins : Begins ArgumentList.tokens before) :
    CompletableStatement (keyword.token :: name.token :: before) := by
  obtain ⟨list, completion, split, written⟩ := begins
  cases found : parameterNames list.phrases with
  | ok names =>
      exact .inl ⟨.function keyword name ⟨list, (parameterNames_ok found).1⟩ (.sample .openBrace)
        noStatements (.sample .closeBrace),
        completion ++ [(Terminal.sample .openBrace).token, (Terminal.sample .closeBrace).token],
        by simp [split], by simp [written]⟩
  | error error =>
      refine .inr ⟨completion, written, fun place others => ?_⟩
      obtain ⟨span, rfl⟩ := exists_of_parameterNames_error found
      refine ⟨span, ?_⟩
      dsimp only
      rw [List.cons_append, outcome_statement_function place keyword.ofKind, List.cons_append,
        ← List.append_assoc, ← split, outcome_functionDeclaration,
        outcome_expect_of_kind _ _ name.ofKind, Outcome.andThen_ok, list.read, Outcome.andThen_ok,
        found]

/-- What a function body can be completed to, the declaration can. -/
theorem completable_of_body (keyword : Terminal .fnKeyword) (name : Terminal .identifier)
    (parameters : ParameterList) (opening : Terminal .openBrace) {before : List Token}
    (completable : CompletableBlock .functionBody before) :
    CompletableStatement
      (keyword.token :: name.token :: (parameters.list.tokens ++ opening.token :: before)) := by
  rcases completable with begins | ⟨completion, written, fails⟩
  · exact .inl (begins.within (.function keyword name parameters opening · (.sample .closeBrace))
      [(Terminal.sample .closeBrace).token] (by simp) fun _ _ split => by simp [split])
  · refine .inr ⟨completion, written, fun place others => ?_⟩
    obtain ⟨span, refused⟩ := fails place others
    refine ⟨span, ?_⟩
    dsimp only at refused ⊢
    rw [List.cons_append, outcome_statement_function place keyword.ofKind, List.cons_append,
      List.append_assoc, List.cons_append,
      outcome_functionDeclaration_body place keyword.token name parameters.list
        (parameterNames_eq_ok parameters.areNames) opening, refused, Outcome.andThen_error]

/-- What the first statement of a block can be completed to, the block can. -/
theorem completable_first {block : Block} {tokens before : List Token}
    (goesOn : ¬ block.endsBefore (nextKind tokens) = true) (isPrefix : before <+: tokens)
    (completable : CompletableStatement before) : CompletableBlock block before := by
  cases before with
  | nil => exact .inl ⟨noStatements, [], rfl, by simp⟩
  | cons head tail =>
      rcases completable with begins | ⟨completion, written, fails⟩
      · refine .inl (begins.within (fun first => ⟨.more first.val .none, first.property,
          first.val.mayPrecede_endOfInput, trivial⟩) [] (by simp) fun first _ split => ?_)
        rw [SeparatedStatement.tokens] at split
        simp [Program.tokens, Statements.tokens, split]
      · refine .inr ⟨completion, written, fun place others => ?_⟩
        obtain ⟨span, refused⟩ := fails place others
        obtain ⟨after, rfl⟩ := isPrefix
        refine ⟨span, ?_⟩
        dsimp only at refused ⊢
        rw [outcome_statements, refused, Outcome.andThen_error]
        exact if_neg goesOn

/-- Behind the first statement of a block, the block goes on with what the others can be completed
to. -/
theorem completable_others {block : Block} {rest before : List Token} {first : Statement}
    {value : Phrase} (separated : first.Separated) (may : first.MayPrecede (nextKind rest))
    (settled : ∀ token after, rest = token :: after → ∀ place others,
      outcome (statement place (first.tokens ++ token :: others)) = .ok (value, token :: others))
    (isPrefix : before <+: rest) (completable : CompletableBlock block before) :
    CompletableBlock block (first.tokens ++ before) := by
  cases before with
  | nil =>
      refine .inl ⟨⟨.more first .none, separated, first.mayPrecede_endOfInput, trivial⟩, [], ?_,
        by simp⟩
      simp [Program.tokens, Statements.tokens]
  | cons head tail =>
      -- The next statement starts with the next token, so the first one may stand before it.
      obtain ⟨after, rfl⟩ := isPrefix
      rcases completable with ⟨program, completion, split, written⟩ | ⟨completion, written, fails⟩
      · rw [Program.tokens] at split
        refine .inl ⟨⟨.more first program.statements, separated, ?_, program.separated⟩,
          completion, ?_, written⟩
        · rw [split]
          exact may
        · simp [Program.tokens, Statements.tokens, split]
      · refine .inr ⟨completion, written, fun place others => ?_⟩
        obtain ⟨span, refused⟩ := fails place others
        refine ⟨span, ?_⟩
        dsimp only at refused ⊢
        rw [List.append_assoc, List.cons_append, outcome_statements,
          not_endsBefore_of_startsStatement block (first.starts _), settled head _ rfl,
          Outcome.andThen_ok, ← List.cons_append, refused]
        rfl

mutual

theorem foresees_statement (tokens : List Token) :
    Foresees (fun place others => outcome (statement place others)) CompletableStatement
      tokens := by
  by_cases noKeyword : (nextKind tokens).isKeyword = false
  · refine ((foresees_expressionStatement tokens).of_head fun place others same => ?_).weaken
      fun _ _ => .inl
    exact outcome_statement_of_noKeyword place (by rw [nextKind_of_head? same, noKeyword])
  · cases tokens with
    | nil => exact absurd rfl noKeyword
    | cons first rest =>
        cases ofKind : first.kind with
        | letKeyword =>
            refine .step (by rw [ofKind]; decide) (fun place others => ?_)
              ((foresees_variableDeclaration false ⟨first, ofKind⟩ rest).weaken fun _ _ => .inl)
            rw [outcome_statement_cons, ofKind]
        | constKeyword =>
            refine .step (by rw [ofKind]; decide) (fun place others => ?_)
              ((foresees_variableDeclaration true ⟨first, ofKind⟩ rest).weaken fun _ _ => .inl)
            rw [outcome_statement_cons, ofKind]
        | fnKeyword =>
            exact .step (by rw [ofKind]; decide)
              (fun place => outcome_statement_function place ofKind)
              (foresees_functionDeclaration ⟨first, ofKind⟩ rest)
        | _ => exact absurd (congrArg Token.Kind.isKeyword ofKind) noKeyword
termination_by 16 * tokens.length + 10
decreasing_by
  subst_vars
  simp only [List.length_cons]
  omega

theorem foresees_functionDeclaration (keyword : Terminal .fnKeyword) (tokens : List Token) :
    Foresees (fun place others => outcome (functionDeclaration place keyword.token others))
      (fun before => CompletableStatement (keyword.token :: before)) tokens := by
  refine .of_eq (outcome_functionDeclaration · keyword.token)
    (.expect (by decide) ?_ fun name rest nameSplit => ?_)
  · exact .inl ⟨.function keyword (.sample _) noParameters (.sample _) noStatements (.sample _), _,
      rfl, by simp [noStatements, Statements.tokens]⟩
  refine (foresees_argumentList rest).andThen
    (fun before _ => completable_of_begins_argumentList keyword name) ?_
  intro behind value afterList yields
  have afterListShorter := length_lt_of_outcome yields
  obtain ⟨list, listSplit, listSame, _⟩ := exists_argumentList yields
  refine ⟨_, listSplit, list.unmarked_tokens, ?_⟩
  rw [← listSame]
  cases found : parameterNames list.phrases with
  | error error =>
      -- No token is to blame: the parameters were looked at behind the last of them.
      obtain ⟨span, rfl⟩ := exists_of_parameterNames_error found
      exact .refuse _ id
  | ok names =>
      let parameters : ParameterList := ⟨list, (parameterNames_ok found).1⟩
      refine .expect (by decide) ?_ fun opening later openingSplit => ?_
      · exact .inl ⟨.function keyword name parameters (.sample .openBrace) noStatements
          (.sample .closeBrace),
          [(Terminal.sample .openBrace).token, (Terminal.sample .closeBrace).token],
          by simp [parameters], by simp⟩
      have laterShorter : later.length < tokens.length := by
        rw [nameSplit, List.length_cons]
        rw [openingSplit, List.length_cons] at afterListShorter
        omega
      refine (foresees_statements .functionBody later).andThen
        (fun before _ => completable_of_body keyword name parameters opening) ?_
      intro behind values last yields
      obtain ⟨body, bodySplit, _, separated, _⟩ := exists_statements yields
      refine ⟨_, bodySplit, body.unmarked_tokens, .expect (by decide) ?_ fun _ _ _ => .pure _⟩
      exact .inl ⟨.function keyword name parameters opening ⟨body, separated⟩
        (.sample .closeBrace), [(Terminal.sample .closeBrace).token],
        by simp [parameters, Program.tokens], by simp⟩
termination_by 16 * tokens.length + 12
decreasing_by all_goals omega

theorem foresees_statements (block : Block) (tokens : List Token) :
    Foresees (fun place others => outcome (statements place block others))
      (CompletableBlock block) tokens := by
  by_cases ends : block.endsBefore (nextKind tokens) = true
  · refine (Foresees.pure []).of_head fun place others same => ?_
    rw [outcome_statements, nextKind_of_head? same, if_pos ends]
  · have goesOn : Foresees (fun place others =>
        (outcome (statement place others)).andThen fun first rest =>
          (outcome (statements place block rest)).andThen fun others rest =>
            .ok (first :: others, rest)) (CompletableBlock block) tokens := by
      refine (foresees_statement tokens).andThen (fun _ => completable_first ends) ?_
      intro behind value rest yields
      have shorter := length_lt_of_outcome yields
      obtain ⟨first, split, _, separated, may⟩ := exists_statement yields
      refine ⟨_, split, first.unmarked_tokens, .map ?_ _⟩
      have settled : ∀ token after, rest = token :: after → ∀ place others, outcome
          (statement place (first.tokens ++ token :: others)) = .ok (value, token :: others) :=
        fun token after => (foresees_statement tokens).settled yields split []
      exact (foresees_statements block rest).weaken fun _ =>
        completable_others separated may settled
    refine goesOn.of_head fun place others same => ?_
    rw [outcome_statements, nextKind_of_head? same, if_neg ends]
termination_by 16 * tokens.length + 11
decreasing_by all_goals omega

end

end Reading

open Reading Grammar Token

/-! ## Programs -/

/-- With some written tokens and an end-of-input mark behind them, the tokens are a program, or one
but for a parameter that is no name. -/
def Phrase.IsCompletable (before : List Token) : Prop :=
  ∃ completion, AreWritten completion ∧ ∀ size,
    (∃ program, ofTokens (before ++ completion ++ [endOfInput size]) = .ok program) ∨
      ∃ span, ofTokens (before ++ completion ++ [endOfInput size]) =
        .error (.parameterNotAName span)

/-- No list that begins with the tokens is a program. -/
def Phrase.IsHopeless (front : List Token) : Prop :=
  ∀ tokens, front <+: tokens → ∀ program, ofTokens tokens ≠ .ok program

/-- The failure is that a token, or the end of input that a token marks, is unexpected. -/
def SyntaxError.IsAt (error : SyntaxError) (found : Token) : Prop :=
  (∃ expected, error = .unexpectedToken found expected) ∨
    found.kind = .endOfInput ∧ ∃ expected, error = .unexpectedEnd expected found.span

theorem Phrase.ofTokens_of_statements_error {tokens : List Token} {error : SyntaxError}
    (fails : outcome (statements (behindAll tokens) .program tokens) = .error error) :
    ofTokens tokens = .error error := by
  rw [ofTokens_eq, fails]
  rfl

/-- What the statements of a program can be completed to, the program can. -/
theorem Phrase.isCompletable_of_completable {before : List Token}
    (completable : CompletableBlock .program before) : IsCompletable before := by
  rcases completable with ⟨program, completion, split, written⟩ | ⟨completion, written, fails⟩
  · refine ⟨completion, written, fun size => .inl ⟨program.phrase size, ?_⟩⟩
    obtain ⟨found, isBefore⟩ :=
      firstMark?_unmarked program.statements.unmarked_tokens ⟨endOfInput size, rfl⟩ []
    rw [← split]
    exact program.read found isBefore.symm
  · refine ⟨completion, written, fun size => .inr ?_⟩
    obtain ⟨span, refused⟩ := fails
      (behindAll (before ++ completion ++ [endOfInput size])) [endOfInput size]
    rw [← List.append_assoc] at refused
    exact ⟨span, ofTokens_of_statements_error refused⟩

/-- Only an end-of-input mark ends the statements of a program, so that it is a program if there is
one. -/
theorem Phrase.exists_of_statements_ok {tokens rest : List Token} {values : List Phrase}
    (marked : unmarked tokens = false)
    (yields : outcome (statements (behindAll tokens) .program tokens) = .ok (values, rest)) :
    ∃ program, ofTokens tokens = .ok program := by
  obtain ⟨body, split, _, _, ends⟩ := exists_statements yields
  cases rest with
  | nil =>
      rw [split, List.append_nil, body.unmarked_tokens] at marked
      cases marked
  | cons mark later =>
      have ofKind : mark.kind = .endOfInput := by
        rw [nextKind_cons] at ends
        revert ends
        cases mark.kind <;> first | exact fun _ => rfl | (intro ends; cases ends)
      rw [ofTokens_eq, yields, Outcome.andThen_ok, outcome_expect_of_kind _ _ ofKind]
      exact ⟨_, rfl⟩

/-- Tokens with an end-of-input mark among them are refused for what they say, or at a token such
that those before it can be completed and those up to it cannot. -/
theorem Phrase.exists_offence_of_ofTokens {tokens : List Token} {error : SyntaxError}
    (marked : unmarked tokens = false) (fails : ofTokens tokens = .error error) :
    ¬ error.IsUnexpected ∨
      ∃ before found later expected, tokens = before ++ found :: later ∧
        error = .atToken found expected ∧ IsCompletable before ∧
          IsHopeless (before ++ [found]) := by
  have foreseen := foresees_statements .program tokens (behindAll tokens)
  dsimp only at foreseen
  cases yields : outcome (statements (behindAll tokens) .program tokens) with
  | ok parsed =>
      obtain ⟨program, reads⟩ := exists_of_statements_ok marked yields
      cases reads.symm.trans fails
  | error cause =>
      cases (ofTokens_of_statements_error yields).symm.trans fails
      rw [yields] at foreseen
      cases foreseen with
      | dry isUnmarked =>
          rw [isUnmarked] at marked
          cases marked
      | refused inOrder => exact .inl inOrder
      | @offended before later found expected split isViable settled =>
          have hopeless : IsHopeless (before ++ [found]) := by
            rintro _ ⟨others, rfl⟩ program reads
            rw [List.append_assoc, List.singleton_append] at reads
            rw [ofTokens_of_statements_error (settled _ others)] at reads
            cases reads
          exact .inr ⟨before, found, later, expected, split, rfl,
            isCompletable_of_completable isViable, hopeless⟩

/-! ## Source texts -/

theorem SyntaxError.IsAt.isUnexpected {error : SyntaxError} {found : Token}
    (isAt : error.IsAt found) : error.IsUnexpected := by
  rcases isAt with ⟨_, rfl⟩ | ⟨_, _, rfl⟩ <;> trivial

theorem SyntaxError.isAt_atToken (found : Token) (expected : Expectation) :
    (SyntaxError.atToken found expected).IsAt found := by
  unfold SyntaxError.atToken
  split
  · next ofKind => exact .inr ⟨ofKind, expected, rfl⟩
  · exact .inl ⟨expected, rfl⟩

/-- A failure is at one token of a source text. -/
theorem SyntaxError.eq_of_isAt {source : String} {tokens : List Token}
    (scans : scan source = .ok tokens) {found other : Token} {expected : Expectation}
    (isFound : found ∈ tokens) (isOther : other ∈ tokens)
    (isAt : (SyntaxError.atToken found expected).IsAt other) : other = found := by
  obtain ⟨before, rfl, areLexical⟩ := exists_lexical_of_scan scans
  have isMark : ∀ token ∈ before ++ [endOfInput source.utf8ByteSize], token.kind = .endOfInput →
      token = endOfInput source.utf8ByteSize := by
    intro token member ofKind
    rcases List.mem_append.1 member with isBefore | isLast
    · exact absurd ofKind (areLexical token isBefore).noMark
    · exact List.mem_singleton.1 isLast
  unfold SyntaxError.atToken at isAt
  split at isAt
  · next ofKind =>
      rcases isAt with ⟨_, same⟩ | ⟨otherOfKind, _⟩
      · cases same
      · rw [isMark found isFound ofKind, isMark other isOther otherOfKind]
  · rcases isAt with ⟨_, same⟩ | ⟨_, _, same⟩
    · cases same
      rfl
    · cases same

/-- A source text that fails at an unexpected token, or at its end, fails at the first token that
cannot be right: the tokens before it can be completed, and nothing begins with those up to it. -/
theorem Phrase.ofSource_fails_at_first_offence {source : String} {tokens : List Token}
    {error : SyntaxError} (scans : scan source = .ok tokens)
    (fails : ofSource source = .error error) :
    (error.IsUnexpected →
        ∃ (index : Nat) (found : Token), tokens[index]? = some found ∧ error.IsAt found) ∧
      ∀ (index : Nat) (found : Token), tokens[index]? = some found → error.IsAt found →
        IsCompletable (tokens.take index) ∧ IsHopeless (tokens.take (index + 1)) := by
  rw [ofSource_of_scan scans] at fails
  have marked : unmarked tokens = false := by
    obtain ⟨before, rfl, _⟩ := exists_lexical_of_scan scans
    simp [endOfInput]
  rcases exists_offence_of_ofTokens marked fails with
    inOrder | ⟨before, found, later, expected, split, rfl, completable, hopeless⟩
  · exact ⟨fun unexpected => absurd unexpected inOrder,
      fun _ _ _ isAt => absurd isAt.isUnexpected inOrder⟩
  · have isFound : tokens[before.length]? = some found := by
      rw [split, List.getElem?_append_right (Nat.le_refl _), Nat.sub_self]
      rfl
    refine ⟨fun _ => ⟨before.length, found, isFound, SyntaxError.isAt_atToken found expected⟩, ?_⟩
    intro index other isOther isAt
    obtain rfl := SyntaxError.eq_of_isAt scans (List.mem_of_getElem? isFound)
      (List.mem_of_getElem? isOther) isAt
    have bound : index < tokens.length := (List.getElem?_eq_some_iff.1 isOther).1
    have sameIndex : index = before.length :=
      (List.getElem?_inj bound (scans_of_scan scans).nodup).1 (isOther.trans isFound.symm)
    have upTo : tokens.take (index + 1) = before ++ [other] := by
      rw [split, sameIndex, List.append_cons]
      exact List.take_left' List.length_append
    rw [upTo, sameIndex]
    refine ⟨?_, hopeless⟩
    rw [split, List.take_left]
    exact completable

/-- An argument list in a function body can be completed before a number without a comma, but not
behind it. -/
theorem arguments_fail_at_second_number :
    ∃ tokens, scan "fn f(a) { a(1 2 }" = .ok tokens ∧
      Phrase.ofSource "fn f(a) { a(1 2 }" =
        .error (.unexpectedToken ⟨.number, "2", 14, 15⟩ .argumentsClosing) ∧
      Phrase.IsCompletable (tokens.take 9) ∧ Phrase.IsHopeless (tokens.take 10) := by
  have isNumber : (scan "fn f(a) { a(1 2 }").map (·[9]?) =
      .ok (some ⟨.number, "2", 14, 15⟩) := by decide +kernel
  have fails : Phrase.ofSource "fn f(a) { a(1 2 }" =
      .error (.unexpectedToken ⟨.number, "2", 14, 15⟩ .argumentsClosing) :=
    eq_error_of_map (fun _ => ()) (by decide +kernel)
  cases scans : scan "fn f(a) { a(1 2 }" with
  | error fault =>
      rw [scans] at isNumber
      cases isNumber
  | ok tokens =>
      rw [scans] at isNumber
      exact ⟨tokens, rfl, fails, (Phrase.ofSource_fails_at_first_offence scans fails).2 9 _
        (Except.ok.inj isNumber) (.inl ⟨_, rfl⟩)⟩

end NanoScript
