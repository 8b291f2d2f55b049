import NanoScript.Reading.Statement

/-!
Contract: what each reader yields, its bound on the count of tokens left aside.

Owns:
- the outcome of a reader: the value and the tokens after it, or the failure;
- one equation for each reader, which says its outcome through the outcomes of the readers it
  calls.

The bound in the type of a reader depends on the tokens it is given; outcomes do not, so that
tokens can be rewritten under them.  Later proofs use these equations and do not open a reader.
-/

namespace NanoScript.Reading

variable {α β : Type} {bound other : Nat}

/-- A value with the tokens after it, or a failure. -/
abbrev Outcome (α : Type) : Type :=
  Except SyntaxError (α × List Token)

/-- Go on with a value and the tokens after it, if there are any. -/
def Outcome.andThen (first : Outcome α) (next : α → List Token → Outcome β) : Outcome β :=
  match first with
  | .ok (value, rest) => next value rest
  | .error error => .error error

@[simp] theorem Outcome.andThen_ok (value : α) (rest : List Token)
    (next : α → List Token → Outcome β) :
    Outcome.andThen (.ok (value, rest)) next = next value rest :=
  rfl

@[simp] theorem Outcome.andThen_error (error : SyntaxError) (next : α → List Token → Outcome β) :
    Outcome.andThen (.error error) next = .error error :=
  rfl

@[simp] theorem Outcome.andThen_ok_self (first : Outcome α) :
    (first.andThen fun value rest => .ok (value, rest)) = first := by
  cases first <;> rfl

theorem Outcome.andThen_congr {first : Outcome α} {next another : α → List Token → Outcome β}
    (same : ∀ value rest, next value rest = another value rest) :
    first.andThen next = first.andThen another := by
  rw [funext fun value => funext (same value)]

theorem Outcome.andThen_assoc {γ : Type} (first : Outcome α)
    (second : α → List Token → Outcome β) (third : β → List Token → Outcome γ) :
    (first.andThen second).andThen third =
      first.andThen fun value rest => (second value rest).andThen third := by
  cases first <;> rfl

/-- Two steps in a row succeed just if the first does and the second does after it. -/
theorem Outcome.andThen_eq_ok_iff {first : Outcome α} {next : α → List Token → Outcome β}
    {result : β × List Token} :
    first.andThen next = .ok result ↔
      ∃ value rest, first = .ok (value, rest) ∧ next value rest = .ok result := by
  cases first with
  | error error => simp
  | ok parsed =>
      constructor
      · intro goesOn
        exact ⟨parsed.1, parsed.2, rfl, goesOn⟩
      · rintro ⟨value, rest, same, goesOn⟩
        cases same
        exact goesOn

/-- A failure shows in what is made of the result. -/
theorem eq_error_of_map {ε : Type} {result : Except ε α} {error : ε} (form : α → β)
    (shows : result.map form = .error error) : result = .error error := by
  cases result with
  | error cause => exact congrArg Except.error (Except.error.inj shows)
  | ok value => cases shows

/-- A success shows in the tokens that are left. -/
theorem Outcome.exists_of_left {result : Outcome α} {rest : List Token}
    (left : result.map Prod.snd = .ok rest) : ∃ value, result = .ok (value, rest) := by
  cases result with
  | error error => cases left
  | ok yielded =>
      obtain ⟨value, behind⟩ := yielded
      cases Except.ok.inj left
      exact ⟨value, rfl⟩

/-- What a reader yields, without the bound. -/
def outcome (reading : Reading α bound) : Outcome α :=
  reading.map fun parsed => (parsed.value, parsed.rest)

/-- The outcome of two readers in a row. -/
theorem outcome_bind (first : Reading α bound) (second : Parsed α bound → Reading β other)
    (next : α → List Token → Outcome β)
    (agrees : ∀ parsed, outcome (second parsed) = next parsed.value parsed.rest) :
    outcome (first >>= second) = (outcome first).andThen next := by
  cases first with
  | error error => rfl
  | ok parsed => exact agrees parsed

/-- The outcome of a reader whose result is passed on. -/
theorem outcome_bind_pure (first : Reading α bound) (second : Parsed α bound → Reading α other)
    (agrees : ∀ parsed, outcome (second parsed) = .ok (parsed.value, parsed.rest)) :
    outcome (first >>= second) = outcome first := by
  cases first with
  | error error => rfl
  | ok parsed => exact agrees parsed

/-- What an outcome leaves is shorter than the bound of its reader. -/
theorem length_lt_of_outcome {reading : Reading α bound} {value : α} {rest : List Token}
    (yields : outcome reading = .ok (value, rest)) : rest.length < bound := by
  cases reading with
  | error error => cases yields
  | ok parsed =>
      cases yields
      exact parsed.fewer

/-! ## One token -/

theorem outcome_expect_cons (behind : Span) (kind : Token.Kind) (expected : Expectation)
    (token : Token) (rest : List Token) :
    outcome (expect behind kind expected (token :: rest)) =
      if token.kind = kind then .ok (token, rest) else .error (.atToken token expected) := by
  change outcome (if token.kind = kind then _ else _) = _
  split <;> rfl

/-- A token of the expected kind is read. -/
theorem outcome_expect_of_kind (behind : Span) {kind : Token.Kind} (expected : Expectation)
    {token : Token} (ofKind : token.kind = kind) (rest : List Token) :
    outcome (expect behind kind expected (token :: rest)) = .ok (token, rest) := by
  rw [outcome_expect_cons, if_pos ofKind]

/-- What was read as a token of some kind is one. -/
theorem eq_cons_of_outcome_expect {behind : Span} {kind : Token.Kind} {expected : Expectation}
    {tokens rest : List Token} {token : Token}
    (yields : outcome (expect behind kind expected tokens) = .ok (token, rest)) :
    tokens = token :: rest ∧ token.kind = kind := by
  cases tokens with
  | nil => cases yields
  | cons first others =>
      rw [outcome_expect_cons] at yields
      split at yields
      · next ofKind =>
          cases yields
          exact ⟨rfl, ofKind⟩
      · cases yields

/-! ## Expressions -/

theorem outcome_expression (behind : Span) (tokens : List Token) :
    outcome (expression behind tokens) =
      (outcome (objectLiteral behind tokens)).andThen fun target rest =>
        if nextKind rest = .equals then
          (outcome (expression behind rest.tail)).andThen fun value rest =>
            .ok (.assignment target value (target.span.merge value.span), rest)
        else .ok (target, rest) := by
  rw [expression]
  refine outcome_bind _ _ _ fun parsed => ?_
  dsimp only
  split
  · exact outcome_bind _ _ _ fun _ => rfl
  · rfl

theorem outcome_objectLiteral_cons (behind : Span) (first : Token) (rest : List Token) :
    outcome (objectLiteral behind (first :: rest)) =
      if first.kind = .openBrace then
        (outcome (entries behind rest)).andThen fun entries rest =>
          (outcome (expect behind .closeBrace .objectClosing rest)).andThen fun close rest =>
            .ok (.objectLiteral entries (first.span.merge close.span), rest)
      else outcome (sum behind (first :: rest)) := by
  rw [objectLiteral]
  split
  · refine outcome_bind _ _ _ fun _ => ?_
    exact outcome_bind _ _ _ fun _ => rfl
  · rfl

theorem outcome_objectLiteral_nil (behind : Span) :
    outcome (objectLiteral behind []) = outcome (sum behind []) := by
  rw [objectLiteral]

/-- Whether the entries of an object literal end before a token of some kind. -/
def endsEntries : Token.Kind → Bool
  | .closeBrace | .endOfInput => true
  | _ => false

theorem outcome_entries (behind : Span) (tokens : List Token) :
    outcome (entries behind tokens) =
      if endsEntries (nextKind tokens) then .ok ([], tokens)
      else
        (outcome (entry behind tokens)).andThen fun first rest =>
          (outcome (entries behind rest)).andThen fun others rest => .ok (first :: others, rest) := by
  rw [entries]
  split
  · next closes =>
      rw [closes]
      rfl
  · next ends =>
      rw [ends]
      rfl
  · next notClose notEnd =>
      have goesOn : ¬ endsEntries (nextKind tokens) = true := by
        unfold endsEntries
        split
        · next closes => exact absurd closes notClose
        · next ends => exact absurd ends notEnd
        · exact Bool.false_ne_true
      rw [if_neg goesOn]
      refine outcome_bind _ _ _ fun _ => ?_
      exact outcome_bind _ _ _ fun _ => rfl

theorem outcome_entry (behind : Span) (tokens : List Token) :
    outcome (entry behind tokens) =
      (outcome (expect behind .identifier .entryKey tokens)).andThen fun key rest =>
        if nextKind rest = .comma then .ok (.shorthand key.text key.span, rest.tail)
        else if nextKind rest = .closeBrace then .ok (.shorthand key.text key.span, rest)
        else
          (outcome (expect behind .colon .entryColon rest)).andThen fun _ rest =>
            (outcome (expression behind rest)).andThen fun value rest =>
              if nextKind rest = .closeBrace then
                .ok (.keyed key.text value (key.span.merge value.span), rest)
              else
                (outcome (expect behind .comma .entryEnd rest)).andThen fun _ rest =>
                  .ok (.keyed key.text value (key.span.merge value.span), rest) := by
  rw [entry]
  refine outcome_bind _ _ _ fun parsed => ?_
  dsimp only
  split
  · next atComma =>
      rw [if_pos atComma]
      rfl
  · next atClose =>
      rw [if_neg (by rw [atClose]; decide), if_pos atClose]
      rfl
  · next notComma notClose =>
      rw [if_neg notComma, if_neg notClose]
      refine outcome_bind _ _ _ fun _ => ?_
      refine outcome_bind _ _ _ fun _ => ?_
      split
      · rfl
      · exact outcome_bind _ _ _ fun _ => rfl

theorem outcome_sum (behind : Span) (tokens : List Token) :
    outcome (sum behind tokens) =
      (outcome (product behind tokens)).andThen fun first rest =>
        outcome (sumTail behind first rest) := by
  rw [sum]
  refine outcome_bind _ _ _ fun parsed => ?_
  exact outcome_bind_pure _ _ fun _ => rfl

theorem outcome_sumTail (behind : Span) (left : Phrase) (tokens : List Token) :
    outcome (sumTail behind left tokens) =
      match (nextOperator? tokens).filter Operator.isAdditive with
      | some operator =>
          (outcome (product behind tokens.tail)).andThen fun right rest =>
            outcome (sumTail behind (.ofOperands left operator right) rest)
      | none => .ok (left, tokens) := by
  rw [sumTail]
  cases next : (nextOperator? tokens).filter Operator.isAdditive with
  | none =>
      simp only
      rfl
  | some operator =>
      cases tokens with
      | nil => cases next
      | cons first rest =>
          simp only
          refine outcome_bind _ _ _ fun parsed => ?_
          exact outcome_bind_pure _ _ fun _ => rfl

theorem outcome_product (behind : Span) (tokens : List Token) :
    outcome (product behind tokens) =
      (outcome (call behind tokens)).andThen fun first rest =>
        outcome (productTail behind first rest) := by
  rw [product]
  refine outcome_bind _ _ _ fun parsed => ?_
  exact outcome_bind_pure _ _ fun _ => rfl

theorem outcome_productTail (behind : Span) (left : Phrase) (tokens : List Token) :
    outcome (productTail behind left tokens) =
      match (nextOperator? tokens).filter Operator.isMultiplicative with
      | some operator =>
          (outcome (call behind tokens.tail)).andThen fun right rest =>
            outcome (productTail behind (.ofOperands left operator right) rest)
      | none => .ok (left, tokens) := by
  rw [productTail]
  cases next : (nextOperator? tokens).filter Operator.isMultiplicative with
  | none =>
      simp only
      rfl
  | some operator =>
      cases tokens with
      | nil => cases next
      | cons first rest =>
          simp only
          refine outcome_bind _ _ _ fun parsed => ?_
          exact outcome_bind_pure _ _ fun _ => rfl

theorem outcome_call (behind : Span) (tokens : List Token) :
    outcome (call behind tokens) =
      (outcome (member behind tokens)).andThen fun callee rest =>
        outcome (callTail behind callee rest) := by
  rw [call]
  refine outcome_bind _ _ _ fun parsed => ?_
  exact outcome_bind_pure _ _ fun _ => rfl

theorem outcome_callTail (behind : Span) (callee : Phrase) (tokens : List Token) :
    outcome (callTail behind callee tokens) =
      if nextKind tokens = .openParen then
        (outcome (argumentList behind tokens)).andThen fun list rest =>
          outcome (callTail behind (.call callee list.1 (callee.span.merge list.2)) rest)
      else .ok (callee, tokens) := by
  rw [callTail]
  split
  · refine outcome_bind _ _ _ fun parsed => ?_
    exact outcome_bind_pure _ _ fun _ => rfl
  · rfl

theorem outcome_argumentList (behind : Span) (tokens : List Token) :
    outcome (argumentList behind tokens) =
      (outcome (expect behind .openParen .argumentsOpening tokens)).andThen fun _ rest =>
        (outcome (arguments behind rest)).andThen fun arguments rest =>
          (outcome (expect behind .closeParen .argumentsClosing rest)).andThen fun close rest =>
            .ok ((arguments, close.span), rest) := by
  rw [argumentList]
  refine outcome_bind _ _ _ fun _ => ?_
  refine outcome_bind _ _ _ fun _ => ?_
  exact outcome_bind _ _ _ fun _ => rfl

theorem outcome_arguments (behind : Span) (tokens : List Token) :
    outcome (arguments behind tokens) =
      if nextKind tokens = .closeParen then .ok ([], tokens)
      else
        (outcome (expression behind tokens)).andThen fun first rest =>
          (outcome (argumentsTail behind rest)).andThen fun others rest =>
            .ok (first :: others, rest) := by
  rw [arguments]
  split
  · rfl
  · refine outcome_bind _ _ _ fun _ => ?_
    exact outcome_bind _ _ _ fun _ => rfl

theorem outcome_argumentsTail (behind : Span) (tokens : List Token) :
    outcome (argumentsTail behind tokens) =
      if nextKind tokens = .comma then
        (outcome (expression behind tokens.tail)).andThen fun argument rest =>
          (outcome (argumentsTail behind rest)).andThen fun others rest =>
            .ok (argument :: others, rest)
      else .ok ([], tokens) := by
  cases tokens with
  | nil =>
      rw [argumentsTail]
      rfl
  | cons first rest =>
      rw [argumentsTail]
      change outcome (if first.kind = .comma then _ else _) =
        if first.kind = .comma then _ else _
      split
      · refine outcome_bind _ _ _ fun _ => ?_
        exact outcome_bind _ _ _ fun _ => rfl
      · rfl

theorem outcome_member (behind : Span) (tokens : List Token) :
    outcome (member behind tokens) =
      (outcome (operand behind tokens)).andThen fun object rest =>
        outcome (memberTail behind object rest) := by
  rw [member]
  refine outcome_bind _ _ _ fun parsed => ?_
  exact outcome_bind_pure _ _ fun _ => rfl

theorem outcome_memberTail (behind : Span) (object : Phrase) (tokens : List Token) :
    outcome (memberTail behind object tokens) =
      if nextKind tokens = .dot then
        (outcome (expect behind .identifier .memberName tokens.tail)).andThen fun name rest =>
          outcome
            (memberTail behind
              (.member object (.identifier name.text name.span) false
                (object.span.merge name.span)) rest)
      else if nextKind tokens = .openBracket then
        (outcome (expression behind tokens.tail)).andThen fun property rest =>
          (outcome (expect behind .closeBracket .memberClosing rest)).andThen fun close rest =>
            outcome
              (memberTail behind
                (.member object property true (object.span.merge close.span)) rest)
      else .ok (object, tokens) := by
  cases tokens with
  | nil =>
      rw [memberTail]
      rfl
  | cons first rest =>
      rw [memberTail]
      change _ = if first.kind = .dot then _ else if first.kind = .openBracket then _ else _
      split
      · next atDot =>
          rw [if_pos atDot]
          refine outcome_bind _ _ _ fun _ => ?_
          exact outcome_bind_pure _ _ fun _ => rfl
      · next atBracket =>
          rw [if_neg (by rw [atBracket]; decide), if_pos atBracket]
          refine outcome_bind _ _ _ fun _ => ?_
          refine outcome_bind _ _ _ fun _ => ?_
          exact outcome_bind_pure _ _ fun _ => rfl
      · next notDot notBracket =>
          rw [if_neg notDot, if_neg notBracket]
          rfl

theorem outcome_operand_nil (behind : Span) :
    outcome (operand behind []) = .error (.unexpectedEnd .operand behind) := by
  rw [operand]
  rfl

theorem outcome_operand_cons (behind : Span) (first : Token) (rest : List Token) :
    outcome (operand behind (first :: rest)) =
      if first.kind = .identifier then .ok (.identifier first.text first.span, rest)
      else if first.kind = .number then
        match Number.read? first.text with
        | some value => .ok (.numericLiteral value first.span, rest)
        | none => .error (.malformedNumber first.text first.span)
      else if first.kind = .openParen then
        (outcome (expression behind rest)).andThen fun value rest =>
          (outcome (expect behind .closeParen .groupClosing rest)).andThen fun _ rest =>
            .ok (value, rest)
      else .error (.atToken first .operand) := by
  rw [operand]
  split
  · next atName =>
      rw [if_pos atName]
      rfl
  · next atNumber =>
      rw [if_neg (by rw [atNumber]; decide), if_pos atNumber]
      cases Number.read? first.text <;> rfl
  · next atParen =>
      rw [if_neg (by rw [atParen]; decide), if_neg (by rw [atParen]; decide), if_pos atParen]
      refine outcome_bind _ _ _ fun _ => ?_
      exact outcome_bind _ _ _ fun _ => rfl
  · next notName notNumber notParen =>
      rw [if_neg notName, if_neg notNumber, if_neg notParen]
      rfl

theorem outcome_expression_nil (behind : Span) :
    outcome (expression behind []) = .error (.unexpectedEnd .operand behind) := by
  rw [outcome_expression, outcome_objectLiteral_nil, outcome_sum, outcome_product, outcome_call,
    outcome_member, outcome_operand_nil]
  rfl

/-! ## Statements -/

theorem outcome_initialized (behind : Span) (constant : Bool) (keyword name : Token)
    (before tokens : List Token) (shorter : tokens.length < before.length) :
    outcome (initialized behind constant keyword name before tokens shorter) =
      (outcome (expect behind .equals .initializer tokens)).andThen fun _ rest =>
        (outcome (expression behind rest)).andThen fun value rest =>
          (outcome (expect behind .semicolon .declarationEnd rest)).andThen fun semicolon rest =>
            .ok
              (.variableDeclaration name.text (some value) constant
                (keyword.span.merge semicolon.span), rest) := by
  unfold initialized
  refine outcome_bind _ _ _ fun _ => ?_
  refine outcome_bind _ _ _ fun _ => ?_
  exact outcome_bind _ _ _ fun _ => rfl

theorem outcome_variableDeclaration (behind : Span) (constant : Bool) (keyword : Token)
    (tokens : List Token) :
    outcome (variableDeclaration behind constant keyword tokens) =
      (outcome (expect behind .identifier .variableName tokens)).andThen fun name rest =>
        if nextKind rest = .semicolon then
          (outcome (expect behind .semicolon .declarationEnd rest)).andThen fun semicolon later =>
            if constant then
              .error (.constantWithoutValue name.text (keyword.span.merge semicolon.span))
            else
              .ok
                (.variableDeclaration name.text none false (keyword.span.merge semicolon.span),
                  later)
        else
          (outcome (expect behind .equals .initializer rest)).andThen fun _ rest =>
            (outcome (expression behind rest)).andThen fun value rest =>
              (outcome (expect behind .semicolon .declarationEnd rest)).andThen
                fun semicolon rest =>
                  .ok
                    (.variableDeclaration name.text (some value) constant
                      (keyword.span.merge semicolon.span), rest) := by
  unfold variableDeclaration
  refine outcome_bind _ _ _ fun parsed => ?_
  obtain ⟨name, rest, fewer⟩ := parsed
  cases rest with
  | nil => exact outcome_initialized behind constant keyword name tokens [] fewer
  | cons next later =>
      change outcome (if next.kind = .semicolon then _ else _) =
        if next.kind = .semicolon then _ else _
      by_cases atSemicolon : next.kind = .semicolon
      · rw [if_pos atSemicolon, if_pos atSemicolon, outcome_expect_of_kind _ _ atSemicolon]
        cases constant <;> rfl
      · rw [if_neg atSemicolon, if_neg atSemicolon]
        exact outcome_initialized behind constant keyword name tokens (next :: later) fewer

theorem outcome_statements (behind : Span) (block : Block) (tokens : List Token) :
    outcome (statements behind block tokens) =
      if block.endsBefore (nextKind tokens) then .ok ([], tokens)
      else
        (outcome (statement behind tokens)).andThen fun first rest =>
          (outcome (statements behind block rest)).andThen fun others rest =>
            .ok (first :: others, rest) := by
  rw [statements]
  split
  · rfl
  · refine outcome_bind _ _ _ fun _ => ?_
    exact outcome_bind _ _ _ fun _ => rfl

theorem outcome_statement_nil (behind : Span) :
    outcome (statement behind []) = outcome (expression behind []) := by
  rw [statement]

theorem outcome_statement_cons (behind : Span) (first : Token) (rest : List Token) :
    outcome (statement behind (first :: rest)) =
      match first.kind with
      | .letKeyword => outcome (variableDeclaration behind false first rest)
      | .constKeyword => outcome (variableDeclaration behind true first rest)
      | .fnKeyword => outcome (functionDeclaration behind first rest)
      | _ =>
          (outcome (expression behind (first :: rest))).andThen fun value rest =>
            .ok (value, dropSemicolon rest) := by
  rw [statement]
  cases first.kind <;> first | rfl | exact outcome_bind _ _ _ fun _ => rfl

/-- A statement without a keyword is an expression, with the semicolon behind it. -/
theorem outcome_statement_of_noKeyword (behind : Span) {tokens : List Token}
    (noKeyword : (nextKind tokens).isKeyword = false) :
    outcome (statement behind tokens) =
      (outcome (expression behind tokens)).andThen fun value rest =>
        .ok (value, dropSemicolon rest) := by
  cases tokens with
  | nil => rw [outcome_statement_nil, outcome_expression_nil, Outcome.andThen_error]
  | cons first rest =>
      change first.kind.isKeyword = false at noKeyword
      rw [outcome_statement_cons]
      revert noKeyword
      cases first.kind <;> first | exact fun _ => rfl | (intro isKeyword; cases isKeyword)

theorem outcome_statement_function (behind : Span) {keyword : Token}
    (ofKind : keyword.kind = .fnKeyword) (rest : List Token) :
    outcome (statement behind (keyword :: rest)) =
      outcome (functionDeclaration behind keyword rest) := by
  rw [outcome_statement_cons, ofKind]

theorem outcome_functionDeclaration (behind : Span) (keyword : Token) (tokens : List Token) :
    outcome (functionDeclaration behind keyword tokens) =
      (outcome (expect behind .identifier .functionName tokens)).andThen fun name rest =>
        (outcome (argumentList behind rest)).andThen fun list rest =>
          match parameterNames list.1 with
          | .error error => .error error
          | .ok names =>
              (outcome (expect behind .openBrace .bodyOpening rest)).andThen fun _ rest =>
                (outcome (statements behind .functionBody rest)).andThen fun body rest =>
                  (outcome (expect behind .closeBrace .bodyClosing rest)).andThen fun close rest =>
                    .ok
                      (.functionDeclaration name.text names body
                        (keyword.span.merge close.span), rest) := by
  rw [functionDeclaration]
  refine outcome_bind _ _ _ fun _ => ?_
  refine outcome_bind _ _ _ fun list => ?_
  dsimp only
  cases parameterNames list.value.1 with
  | error error => rfl
  | ok names =>
      refine outcome_bind _ _ _ fun _ => ?_
      refine outcome_bind _ _ _ fun _ => ?_
      exact outcome_bind _ _ _ fun _ => rfl

end NanoScript.Reading

namespace NanoScript

/-- Reading a program is reading its statements up to an end-of-input mark. -/
theorem Phrase.ofTokens_eq (tokens : List Token) :
    Phrase.ofTokens tokens =
      Except.map Prod.fst
        ((Reading.outcome
            (Reading.statements (Reading.behindAll tokens) .program tokens)).andThen
          fun body rest =>
            (Reading.outcome
                (Reading.expect (Reading.behindAll tokens) .endOfInput .programEnd rest)).andThen
              fun last rest => .ok (.program body ⟨0, last.span.stop⟩, rest)) := by
  unfold Phrase.ofTokens
  dsimp only
  cases Reading.statements (Reading.behindAll tokens) .program tokens with
  | error error => rfl
  | ok parsed =>
      obtain ⟨body, rest, fewer⟩ := parsed
      change
        (Reading.expect (Reading.behindAll tokens) .endOfInput .programEnd rest >>= fun last =>
            .ok (Phrase.program body ⟨0, last.value.span.stop⟩)) =
          Except.map Prod.fst
            ((Reading.outcome
                (Reading.expect (Reading.behindAll tokens) .endOfInput .programEnd rest)).andThen
              fun last rest => .ok (Phrase.program body ⟨0, last.span.stop⟩, rest))
      cases Reading.expect (Reading.behindAll tokens) .endOfInput .programEnd rest with
      | error error => rfl
      | ok last => rfl

theorem Phrase.ofSource_of_scan {source : String} {tokens : List Token}
    (scans : Token.scan source = .ok tokens) : Phrase.ofSource source = Phrase.ofTokens tokens := by
  unfold Phrase.ofSource
  rw [scans]

theorem Phrase.ofSource_of_scan_error {source : String} {fault : Token.Unrecognized}
    (fails : Token.scan source = .error fault) :
    Phrase.ofSource source = .error (.unrecognizedCharacter fault) := by
  unfold Phrase.ofSource
  rw [fails]

end NanoScript
