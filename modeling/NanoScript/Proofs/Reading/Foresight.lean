import NanoScript.Proofs.Grammar.Beginning
import NanoScript.Proofs.Reading.Recognition

/-!
Contract: what a reader decides, it decides at the token that it looks at.

Owns:
- foreseen outcomes: a value or a failure depends on nothing behind the token at which the reader
  stops, and the tokens before an offending one are viable;
- one lemma for each way in which readers are put together;
- foresight of the readers for expressions: what they read up to an offending token begins a
  derivation.

The induction is on the measure by which the readers end.
-/

namespace NanoScript

/-- The failure is that a token, or the end of the tokens, stands where something else should. -/
def SyntaxError.IsUnexpected : SyntaxError → Prop
  | .unexpectedToken _ _ | .unexpectedEnd _ _ => True
  | _ => False

namespace Reading

open Grammar

variable {α β : Type}

/-- A reader without its bound, given the place behind all tokens and the tokens it reads. -/
abbrev Reader (α : Type) : Type :=
  Span → List Token → Outcome α

/-- What a reader yields is settled at the next token, whatever stands behind that one. -/
inductive Foreseen (read : Reader α) (viable : List Token → Prop) (behind : Span)
    (tokens : List Token) : Outcome α → Prop
  /-- A value is read and the next token is left. -/
  | finished {value : α} {used rest : List Token} (split : tokens = used ++ rest)
      (settled : ∀ next later, rest = next :: later → ∀ place others,
        read place (used ++ next :: others) = .ok (value, next :: others)) :
      Foreseen read viable behind tokens (.ok (value, rest))
  /-- There is no next token. -/
  | dry {expected : Expectation} (isUnmarked : unmarked tokens = true) :
      Foreseen read viable behind tokens (.error (.unexpectedEnd expected behind))
  /-- The next token stands where something else should. -/
  | offended {before later : List Token} {found : Token} {expected : Expectation}
      (split : tokens = before ++ found :: later) (isViable : viable before)
      (settled : ∀ place others,
        read place (before ++ found :: others) = .error (.atToken found expected)) :
      Foreseen read viable behind tokens (.error (.atToken found expected))
  /-- The tokens are in order, what they say is not. -/
  | refused {error : SyntaxError} (inOrder : ¬ error.IsUnexpected) :
      Foreseen read viable behind tokens (.error error)

/-- What a reader yields from some tokens is foreseen. -/
def Foresees (read : Reader α) (viable : List Token → Prop) (tokens : List Token) : Prop :=
  ∀ behind, Foreseen read viable behind tokens (read behind tokens)

/-! ## Lists with the same first token -/

theorem head?_append_cons (front : List Token) (token : Token) (left right : List Token) :
    (front ++ token :: left).head? = (front ++ token :: right).head? := by
  cases front <;> rfl

theorem nextKind_of_head? {left right : List Token} (same : left.head? = right.head?) :
    nextKind left = nextKind right := by
  cases left <;> cases right <;> cases same <;> rfl

theorem nextOperator?_of_head? {left right : List Token} (same : left.head? = right.head?) :
    nextOperator? left = nextOperator? right := by
  cases left <;> cases right <;> cases same <;> rfl

/-! ## How readers are put together -/

namespace Foresees

variable {read next : Reader α} {viable other : List Token → Prop} {tokens rest : List Token}

theorem weaken (foresees : Foresees read viable tokens)
    (weaker : ∀ before, before <+: tokens → viable before → other before) :
    Foresees read other tokens := by
  intro behind
  have foreseen := foresees behind
  generalize read behind tokens = found at foreseen ⊢
  cases foreseen with
  | finished split settled => exact .finished split settled
  | dry isUnmarked => exact .dry isUnmarked
  | offended split isViable settled =>
      exact .offended split (weaker _ ⟨_, split.symm⟩ isViable) settled
  | refused inOrder => exact .refused inOrder

/-- Readers that agree on all lists with the same first token foresee alike. -/
theorem of_head (agrees : ∀ place others, others.head? = tokens.head? →
      read place others = next place others)
    (foresees : Foresees next viable tokens) : Foresees read viable tokens := by
  intro behind
  rw [agrees behind tokens rfl]
  have foreseen := foresees behind
  generalize next behind tokens = found at foreseen
  cases foreseen with
  | finished split settled =>
      refine .finished split fun first later isRest place others => ?_
      rw [agrees, settled first later isRest]
      rw [split, isRest]
      exact head?_append_cons ..
  | dry isUnmarked => exact .dry isUnmarked
  | offended split isViable settled =>
      refine .offended split isViable fun place others => ?_
      rw [agrees, settled]
      rw [split]
      exact head?_append_cons ..
  | refused inOrder => exact .refused inOrder

theorem of_eq (agrees : ∀ place others, read place others = next place others)
    (foresees : Foresees next viable tokens) : Foresees read viable tokens :=
  foresees.of_head fun place others _ => agrees place others

/-- A reader that goes on behind a token. -/
theorem step {token : Token} (notMark : token.kind ≠ .endOfInput)
    (agrees : ∀ place others, read place (token :: others) = next place others)
    (foresees : Foresees next (fun before => viable (token :: before)) rest) :
    Foresees read viable (token :: rest) := by
  intro behind
  rw [agrees]
  have foreseen := foresees behind
  generalize next behind rest = found at foreseen
  cases foreseen with
  | @finished _ used left split settled =>
      have whole : token :: rest = (token :: used) ++ left := congrArg (token :: ·) split
      refine .finished whole fun first later isRest place others => ?_
      rw [List.cons_append, agrees, settled first later isRest]
  | dry isUnmarked =>
      refine .dry ?_
      rw [unmarked_cons, isUnmarked, decide_eq_true notMark]
      rfl
  | @offended before later found _ split isViable settled =>
      have whole : token :: rest = (token :: before) ++ found :: later :=
        congrArg (token :: ·) split
      refine .offended whole isViable fun place others => ?_
      rw [List.cons_append, agrees, settled]
  | refused inOrder => exact .refused inOrder

theorem pure (value : α) : Foresees (fun _ others => .ok (value, others)) viable tokens :=
  fun _ => .finished (List.nil_append _).symm fun _ _ _ _ _ => rfl

theorem refuse (error : SyntaxError) (inOrder : ¬ error.IsUnexpected) :
    Foresees (fun _ _ => (.error error : Outcome α)) viable tokens :=
  fun _ => .refused inOrder

theorem nil {expected : Expectation}
    (dry : ∀ place, read place [] = .error (.unexpectedEnd expected place)) :
    Foresees read viable [] := by
  intro behind
  rw [dry]
  exact .dry rfl

theorem offend {token : Token} (expected : Expectation) (start : viable [])
    (agrees : ∀ place others, read place (token :: others) = .error (.atToken token expected)) :
    Foresees read viable (token :: rest) := by
  intro behind
  rw [agrees]
  exact .offended (List.nil_append _).symm start agrees

/-- What is read once is read again wherever the next token is the same. -/
theorem settled (foresees : Foresees read viable tokens) {behind : Span} {value : α}
    {used : List Token} (yields : read behind tokens = .ok (value, rest))
    (split : tokens = used ++ rest) (front : List Token) {token : Token} {after : List Token}
    (isRest : rest = front ++ token :: after) (place : Span) (others : List Token) :
    read place (used ++ (front ++ token :: others)) = .ok (value, front ++ token :: others) := by
  have foreseen := foresees behind
  rw [yields] at foreseen
  cases foreseen with
  | finished otherSplit settled =>
      cases List.append_cancel_right (otherSplit.symm.trans split)
      cases front with
      | nil => exact settled token after isRest place others
      | cons head tail => exact settled head (tail ++ token :: after) isRest place _

/-- One reader behind another. -/
theorem andThen {first : Reader α} {second : Span → α → List Token → Outcome β}
    {firstViable : List Token → Prop} (foresees : Foresees first firstViable tokens)
    (lifts : ∀ before, before <+: tokens → firstViable before → viable before)
    (goesOn : ∀ behind value rest, first behind tokens = .ok (value, rest) →
      ∃ used, tokens = used ++ rest ∧ unmarked used = true ∧
        Foresees (fun place later => second place value later)
          (fun before => viable (used ++ before)) rest) :
    Foresees (fun place others => (first place others).andThen (second place)) viable tokens := by
  intro behind
  have foreseen := foresees behind
  change Foreseen _ viable behind tokens ((first behind tokens).andThen (second behind))
  cases yields : first behind tokens with
  | error error =>
      rw [yields] at foreseen
      cases foreseen with
      | dry isUnmarked => exact .dry isUnmarked
      | offended split isViable settled =>
          refine .offended split (lifts _ ⟨_, split.symm⟩ isViable) fun place others => ?_
          rw [settled, Outcome.andThen_error]
      | refused inOrder => exact .refused inOrder
  | ok parsed =>
      obtain ⟨value, rest⟩ := parsed
      obtain ⟨used, split, usedUnmarked, later⟩ := goesOn behind value rest yields
      have secondForeseen : Foreseen _ _ behind rest (second behind value rest) := later behind
      change Foreseen _ viable behind tokens (second behind value rest)
      generalize second behind value rest = result at secondForeseen
      cases secondForeseen with
      | @finished result taken left secondSplit settled =>
          have whole : tokens = (used ++ taken) ++ left := by
            rw [split, secondSplit, List.append_assoc]
          refine .finished whole fun next after isRest place others => ?_
          rw [List.append_assoc, foresees.settled yields split taken (isRest ▸ secondSplit),
            Outcome.andThen_ok]
          exact settled next after isRest place others
      | dry isUnmarked =>
          refine .dry ?_
          rw [split, unmarked_append, usedUnmarked, isUnmarked]
          rfl
      | @offended before after found expected secondSplit isViable settled =>
          have whole : tokens = (used ++ before) ++ found :: after := by
            rw [split, secondSplit, List.append_assoc]
          refine .offended whole isViable fun place others => ?_
          rw [List.append_assoc, foresees.settled yields split before secondSplit,
            Outcome.andThen_ok]
          exact settled place others
      | refused inOrder => exact .refused inOrder

/-- A reader whose value is passed on in another form. -/
theorem map {first : Reader α} (foresees : Foresees first viable tokens) (form : α → β) :
    Foresees (fun place others => (first place others).andThen fun value rest =>
      .ok (form value, rest)) viable tokens := by
  intro behind
  have foreseen := foresees behind
  change Foreseen _ viable behind tokens ((first behind tokens).andThen _)
  generalize first behind tokens = found at foreseen
  cases foreseen with
  | finished split settled =>
      refine .finished split fun next later isRest place others => ?_
      rw [settled next later isRest, Outcome.andThen_ok]
  | dry isUnmarked => exact .dry isUnmarked
  | offended split isViable settled =>
      refine .offended split isViable fun place others => ?_
      rw [settled, Outcome.andThen_error]
  | refused inOrder => exact .refused inOrder

/-- One derivation behind another, of which the second can always be completed.  Together they
build a derivation, maybe with tokens in front. -/
theorem chain {δ ε ω : Type} {first : Reader α} {second : Span → α → List Token → Outcome β}
    {firstTokens : δ → List Token} {wholeTokens : ω → List Token}
    (foresees : Foresees first (Begins firstTokens) tokens) (secondTokens : ε → List Token)
    (front : List Token) (build : δ → ε → ω)
    (splits : ∀ left right, wholeTokens (build left right) =
      front ++ (firstTokens left ++ secondTokens right))
    (ending : ε) (written : AreWritten (secondTokens ending))
    (goesOn : ∀ behind value rest, first behind tokens = .ok (value, rest) →
      ∃ derivation, tokens = firstTokens derivation ++ rest ∧
        unmarked (firstTokens derivation) = true ∧
          Foresees (fun place later => second place value later) (Begins secondTokens) rest) :
    Foresees (fun place others => (first place others).andThen (second place))
      (fun before => Begins wholeTokens (front ++ before)) tokens := by
  refine foresees.andThen ?_ ?_
  · intro before _ begins
    exact begins.within (build · ending) (secondTokens ending) written fun _ _ split => by
      simp [splits, split]
  · intro behind value rest yields
    obtain ⟨derivation, split, isUnmarked, later⟩ := goesOn behind value rest yields
    refine ⟨_, split, isUnmarked, later.weaken fun before _ begins => ?_⟩
    exact begins.within (build derivation) [] (by simp) fun _ _ split => by simp [splits, split]

/-- A reader behind a token that it does not look at any more. -/
theorem behindToken {kind : Token.Kind} (token : Terminal kind) (notMark : kind ≠ .endOfInput)
    (split : tokens = token.token :: tokens.tail)
    (agrees : ∀ place others, read place (token.token :: others) = next place others)
    (foresees : Foresees next (fun before => viable (token.token :: before)) tokens.tail) :
    Foresees read viable tokens := by
  rw [split]
  exact step (by rw [token.ofKind]; exact notMark) agrees foresees

/-- A token of some kind, which must be there, before the rest. -/
theorem expect {kind : Token.Kind} {expected : Expectation}
    {second : Span → Token → List Token → Outcome β} (notMark : kind ≠ .endOfInput)
    (start : viable [])
    (goesOn : ∀ (terminal : Terminal kind) rest, tokens = terminal.token :: rest →
      Foresees (fun place later => second place terminal.token later)
        (fun before => viable (terminal.token :: before)) rest) :
    Foresees (fun place others =>
      (outcome (Reading.expect place kind expected others)).andThen (second place)) viable
        tokens := by
  cases tokens with
  | nil => exact fun _ => .dry rfl
  | cons token rest =>
      by_cases ofKind : token.kind = kind
      · refine step (ofKind ▸ notMark) (fun place others => ?_) (goesOn ⟨token, ofKind⟩ rest rfl)
        rw [outcome_expect_of_kind _ _ ofKind, Outcome.andThen_ok]
      · have offends : ∀ place others, (outcome (Reading.expect place kind expected
            (token :: others))).andThen (second place) = .error (.atToken token expected) := by
          intro place others
          rw [outcome_expect_cons, if_neg ofKind, Outcome.andThen_error]
        exact offend expected start offends

/-- A token of some kind, which must be there, at the end. -/
theorem close {kind : Token.Kind} {expected : Expectation} (notNumber : kind ≠ .number)
    (notMark : kind ≠ .endOfInput) (form : Token → β) :
    Foresees (fun place others =>
      (outcome (Reading.expect place kind expected others)).andThen fun token rest =>
        .ok (form token, rest))
      (Begins fun closing : Terminal kind => closing.tokens) tokens := by
  refine expect notMark ?_ fun _ _ _ => .pure _
  exact ⟨.sample kind, [(Terminal.sample kind).token], rfl, by simp [notNumber, notMark]⟩

/-- A reader that looks at the kind of the next token. -/
theorem ite {kind : Token.Kind} {left right : Reader α}
    (yes : nextKind tokens = kind → Foresees left viable tokens)
    (no : nextKind tokens ≠ kind → Foresees right viable tokens) :
    Foresees (fun place others =>
      if nextKind others = kind then left place others else right place others) viable tokens := by
  by_cases ofKind : nextKind tokens = kind
  · refine (yes ofKind).of_head fun place others same => ?_
    rw [nextKind_of_head? same, if_pos ofKind]
  · refine (no ofKind).of_head fun place others same => ?_
    rw [nextKind_of_head? same, if_neg ofKind]

/-- A reader that looks whether an operator of some level comes next. -/
theorem operator {level : Operator → Bool} {left : Span → Operator → List Token → Outcome α}
    {right : Reader α}
    (some : ∀ operator, (nextOperator? tokens).filter level = .some operator →
      Foresees (fun place others => left place operator others) viable tokens)
    (none : (nextOperator? tokens).filter level = .none → Foresees right viable tokens) :
    Foresees (fun place others =>
      match (nextOperator? others).filter level with
      | .some operator => left place operator others
      | .none => right place others) viable tokens := by
  cases next : (nextOperator? tokens).filter level with
  | some operator =>
      refine (some operator next).of_head fun place others same => ?_
      rw [nextOperator?_of_head? same, next]
  | none =>
      refine (none next).of_head fun place others same => ?_
      rw [nextOperator?_of_head? same, next]

end Foresees

/-! ## Expressions -/


mutual

theorem foresees_expression (tokens : List Token) :
    Foresees (fun place others => outcome (expression place others))
      (Begins Grammar.Expression.tokens) tokens := by
  refine .of_eq outcome_expression ?_
  refine (foresees_objectLiteral tokens).andThen ?_ ?_
  · intro before _ begins
    exact begins.within .plain [] (by simp) fun _ _ split => by
      simp [Grammar.Expression.tokens, split]
  · intro behind target rest yields
    have shorter := length_lt_of_outcome yields
    obtain ⟨whole, split, _⟩ := exists_objectLiteral yields
    refine ⟨_, split, whole.unmarked_tokens, .ite (fun atEquals => ?_) fun _ => .pure _⟩
    obtain ⟨equals, equalsSplit⟩ := exists_cons_of_nextKind atEquals (by decide)
    have tailShorter : rest.tail.length ≤ rest.length := by simp
    refine .behindToken equals (by decide) equalsSplit (fun _ _ => rfl) (.map ?_ _)
    refine (foresees_expression rest.tail).weaken fun before _ begins => ?_
    exact begins.within (.assignment whole equals) [] (by simp) fun _ _ split => by
      simp [Grammar.Expression.tokens, split]
termination_by 16 * tokens.length + 9
decreasing_by all_goals omega

theorem foresees_objectLiteral (tokens : List Token) :
    Foresees (fun place others => outcome (objectLiteral place others))
      (Begins Grammar.ObjectLiteral.tokens) tokens := by
  by_cases atBrace : nextKind tokens = .openBrace
  · obtain ⟨opening, openingSplit⟩ := exists_cons_of_nextKind atBrace (by decide)
    have tailShorter := length_tail_lt_of_cons openingSplit
    have inside := foresees_entries tokens.tail
    rw [openingSplit]
    refine .step (by rw [opening.ofKind]; decide) (fun place others =>
      (outcome_objectLiteral_cons place opening.token others).trans (if_pos opening.ofKind)) ?_
    refine inside.chain Terminal.tokens [opening.token] (.literal opening) (fun _ _ => rfl)
      (.sample .closeBrace) (by simp [Terminal.tokens]) ?_
    intro behind values rest yields
    obtain ⟨entries, split, _⟩ := exists_entries yields
    exact ⟨entries, split, entries.unmarked_tokens, .close (by decide) (by decide) _⟩
  · have asSum : Foresees (fun place others => outcome (objectLiteral place others))
        (Begins Grammar.Sum.tokens) tokens := by
      refine (foresees_sum tokens).of_head fun place others same => ?_
      rw [← nextKind_of_head? same] at atBrace
      cases others with
      | nil => exact outcome_objectLiteral_nil place
      | cons first rest => exact (outcome_objectLiteral_cons ..).trans (if_neg atBrace)
    refine asSum.weaken fun before _ begins => ?_
    exact begins.within .sum [] (by simp) fun _ _ split => by
      simp [Grammar.ObjectLiteral.tokens, split]
termination_by 16 * tokens.length + 8
decreasing_by all_goals omega

theorem foresees_entries (tokens : List Token) :
    Foresees (fun place others => outcome (entries place others))
      (Begins Grammar.Entries.tokens) tokens := by
  have atEnd (listed : List Token) {viable : List Token → Prop}
      (ends : endsEntries (nextKind listed) = true) :
      Foresees (fun place others => outcome (entries place others)) viable listed := by
    refine (Foresees.pure []).of_head fun place others same => ?_
    rw [outcome_entries, nextKind_of_head? same, if_pos ends]
  by_cases ends : endsEntries (nextKind tokens) = true
  · exact atEnd tokens ends
  · have goesOn : Foresees (fun place others =>
        (outcome (entry place others)).andThen fun first rest =>
          (outcome (entries place rest)).andThen fun others rest => .ok (first :: others, rest))
        (Begins Grammar.Entries.tokens) tokens := by
      refine (foresees_entry tokens).andThen ?_ ?_
      · intro before _ begins
        exact begins.within .last [] (by simp) fun _ _ split => by
          simp [Grammar.Entries.tokens, split]
      · intro behind value rest yields
        have shorter := length_lt_of_outcome yields
        obtain ⟨listed, _, ⟨comma, split⟩ | ⟨split, closes⟩⟩ := exists_entry yields
        · refine ⟨listed.tokens ++ [comma.token], by simp [split],
            by simp [listed.unmarked_tokens], .map ?_ _⟩
          refine (foresees_entries rest).weaken fun before _ begins => ?_
          exact begins.within (.more listed comma) [] (by simp) fun _ _ split => by
            simp [Grammar.Entries.tokens, split]
        · -- No entry stands behind one without a comma, so nothing can offend there.
          refine ⟨_, split, listed.unmarked_tokens, .map (atEnd rest ?_) _⟩
          rw [closes]
          rfl
    refine goesOn.of_head fun place others same => ?_
    rw [outcome_entries, nextKind_of_head? same, if_neg ends]
termination_by 16 * tokens.length + 11
decreasing_by all_goals omega

theorem foresees_entry (tokens : List Token) :
    Foresees (fun place others => outcome (entry place others)) (Begins Grammar.Entry.tokens)
      tokens := by
  refine .of_eq outcome_entry ?_
  refine .expect (by decide) ?_ fun key rest keySplit => ?_
  · exact ⟨.shorthand (.sample .identifier), _, rfl, by simp⟩
  refine .ite (fun atComma => ?_) fun _ => .ite (fun _ => .pure _) fun _ => ?_
  · obtain ⟨comma, commaSplit⟩ := exists_cons_of_nextKind atComma (by decide)
    exact .behindToken comma (by decide) commaSplit (fun _ _ => rfl) (.pure _)
  refine .expect (by decide) (.whole (Grammar.Entry.shorthand key)) fun colon later colonSplit => ?_
  have shorter : later.length < tokens.length := by
    rw [keySplit, colonSplit, List.length_cons, List.length_cons]
    omega
  refine (foresees_expression later).andThen ?_ ?_
  · intro before _ begins
    exact begins.within (.keyed key colon) [] (by simp) fun _ _ split => by
      simp [Grammar.Entry.tokens, split]
  · intro behind phrase last yields
    obtain ⟨value, split, _⟩ := exists_expression yields
    refine ⟨_, split, value.unmarked_tokens, .ite (fun _ => .pure _) fun _ => ?_⟩
    refine .expect (by decide) ?_ fun _ _ _ => .pure _
    exact ⟨.keyed key colon value, [], by simp [Grammar.Entry.tokens], by simp⟩
termination_by 16 * tokens.length + 10
decreasing_by all_goals omega

theorem foresees_sum (tokens : List Token) :
    Foresees (fun place others => outcome (sum place others)) (Begins Grammar.Sum.tokens)
      tokens := by
  refine .of_eq outcome_sum ?_
  refine (foresees_product tokens).chain SumTail.tokens [] .mk (fun _ _ => rfl) .done
    (by simp [SumTail.tokens]) ?_
  intro behind value rest yields
  have shorter := length_lt_of_outcome yields
  obtain ⟨first, split, _⟩ := exists_product yields
  exact ⟨first, split, first.unmarked_tokens, foresees_sumTail value rest⟩
termination_by 16 * tokens.length + 7
decreasing_by all_goals omega

theorem foresees_sumTail (left : Phrase) (tokens : List Token) :
    Foresees (fun place others => outcome (sumTail place left others))
      (Begins Grammar.SumTail.tokens) tokens := by
  refine .of_eq (outcome_sumTail · left)
    (.operator (fun operator next => ?_) fun _ => .pure _)
  obtain ⟨mark, _, markSplit⟩ := exists_operatorMark next
  have tailShorter := length_tail_lt_of_cons markSplit
  refine .behindToken ⟨mark.token, mark.ofKind⟩ (by decide) markSplit (fun _ _ => rfl)
    ((foresees_product tokens.tail).chain SumTail.tokens [mark.token] (.more mark)
      (fun _ _ => rfl) .done (by simp [SumTail.tokens]) ?_)
  intro behind value rest yields
  have shorter := length_lt_of_outcome yields
  obtain ⟨right, split, _⟩ := exists_product yields
  exact ⟨right, split, right.unmarked_tokens, foresees_sumTail _ rest⟩
termination_by 16 * tokens.length + 6
decreasing_by all_goals omega

theorem foresees_product (tokens : List Token) :
    Foresees (fun place others => outcome (product place others)) (Begins Grammar.Product.tokens)
      tokens := by
  refine .of_eq outcome_product ?_
  refine (foresees_call tokens).chain ProductTail.tokens [] .mk (fun _ _ => rfl) .done
    (by simp [ProductTail.tokens]) ?_
  intro behind value rest yields
  have shorter := length_lt_of_outcome yields
  obtain ⟨first, split, _⟩ := exists_call yields
  exact ⟨first, split, first.unmarked_tokens, foresees_productTail value rest⟩
termination_by 16 * tokens.length + 5
decreasing_by all_goals omega

theorem foresees_productTail (left : Phrase) (tokens : List Token) :
    Foresees (fun place others => outcome (productTail place left others))
      (Begins Grammar.ProductTail.tokens) tokens := by
  refine .of_eq (outcome_productTail · left)
    (.operator (fun operator next => ?_) fun _ => .pure _)
  obtain ⟨mark, _, markSplit⟩ := exists_operatorMark next
  have tailShorter := length_tail_lt_of_cons markSplit
  refine .behindToken ⟨mark.token, mark.ofKind⟩ (by decide) markSplit (fun _ _ => rfl)
    ((foresees_call tokens.tail).chain ProductTail.tokens [mark.token] (.more mark)
      (fun _ _ => rfl) .done (by simp [ProductTail.tokens]) ?_)
  intro behind value rest yields
  have shorter := length_lt_of_outcome yields
  obtain ⟨right, split, _⟩ := exists_call yields
  exact ⟨right, split, right.unmarked_tokens, foresees_productTail _ rest⟩
termination_by 16 * tokens.length + 4
decreasing_by all_goals omega

theorem foresees_call (tokens : List Token) :
    Foresees (fun place others => outcome (call place others)) (Begins Grammar.Call.tokens)
      tokens := by
  refine .of_eq outcome_call ?_
  refine (foresees_member tokens).chain CallTail.tokens [] .mk (fun _ _ => rfl) .done
    (by simp [CallTail.tokens]) ?_
  intro behind value rest yields
  have shorter := length_lt_of_outcome yields
  obtain ⟨callee, split, _⟩ := exists_member yields
  exact ⟨callee, split, callee.unmarked_tokens, foresees_callTail value rest⟩
termination_by 16 * tokens.length + 3
decreasing_by all_goals omega

theorem foresees_callTail (callee : Phrase) (tokens : List Token) :
    Foresees (fun place others => outcome (callTail place callee others))
      (Begins Grammar.CallTail.tokens) tokens := by
  refine .of_eq (outcome_callTail · callee) (.ite (fun _ => ?_) fun _ => .pure _)
  refine (foresees_argumentList tokens).chain CallTail.tokens [] .more (fun _ _ => rfl) .done
    (by simp [CallTail.tokens]) ?_
  intro behind value rest yields
  have shorter := length_lt_of_outcome yields
  obtain ⟨list, split, _⟩ := exists_argumentList yields
  exact ⟨list, split, list.unmarked_tokens, foresees_callTail _ rest⟩
termination_by 16 * tokens.length + 13
decreasing_by all_goals omega

theorem foresees_argumentList (tokens : List Token) :
    Foresees (fun place others => outcome (argumentList place others))
      (Begins Grammar.ArgumentList.tokens) tokens := by
  refine .of_eq outcome_argumentList (.expect (by decide) ?_ fun opening rest openingSplit => ?_)
  · exact ⟨.mk (.sample .openParen) .none (.sample .closeParen), _, rfl,
      by simp [Grammar.Arguments.tokens]⟩
  have shorter : rest.length < tokens.length := by
    rw [openingSplit]
    simp
  refine (foresees_arguments rest).chain Terminal.tokens [opening.token] (.mk opening)
    (fun _ _ => rfl) (.sample .closeParen) (by simp [Terminal.tokens]) ?_
  intro behind values later yields
  obtain ⟨arguments, split, _⟩ := exists_arguments yields
  exact ⟨arguments, split, arguments.unmarked_tokens, .close (by decide) (by decide) _⟩
termination_by 16 * tokens.length + 12
decreasing_by all_goals omega

theorem foresees_arguments (tokens : List Token) :
    Foresees (fun place others => outcome (arguments place others))
      (Begins Grammar.Arguments.tokens) tokens := by
  refine .of_eq outcome_arguments (.ite (fun _ => .pure _) fun _ => ?_)
  refine (foresees_expression tokens).chain ArgumentsTail.tokens [] .some (fun _ _ => rfl) .done
    (by simp [ArgumentsTail.tokens]) ?_
  intro behind value rest yields
  have shorter := length_lt_of_outcome yields
  obtain ⟨first, split, _⟩ := exists_expression yields
  exact ⟨first, split, first.unmarked_tokens, (foresees_argumentsTail rest).map _⟩
termination_by 16 * tokens.length + 11
decreasing_by all_goals omega

theorem foresees_argumentsTail (tokens : List Token) :
    Foresees (fun place others => outcome (argumentsTail place others))
      (Begins Grammar.ArgumentsTail.tokens) tokens := by
  refine .of_eq outcome_argumentsTail (.ite (fun atComma => ?_) fun _ => .pure _)
  obtain ⟨comma, commaSplit⟩ := exists_cons_of_nextKind atComma (by decide)
  have tailShorter := length_tail_lt_of_cons commaSplit
  refine .behindToken comma (by decide) commaSplit (fun _ _ => rfl)
    ((foresees_expression tokens.tail).chain ArgumentsTail.tokens [comma.token] (.more comma)
      (fun _ _ => rfl) .done (by simp [ArgumentsTail.tokens]) ?_)
  intro behind value rest yields
  have shorter := length_lt_of_outcome yields
  obtain ⟨argument, split, _⟩ := exists_expression yields
  exact ⟨argument, split, argument.unmarked_tokens, (foresees_argumentsTail rest).map _⟩
termination_by 16 * tokens.length
decreasing_by all_goals omega

theorem foresees_member (tokens : List Token) :
    Foresees (fun place others => outcome (member place others)) (Begins Grammar.Member.tokens)
      tokens := by
  refine .of_eq outcome_member ?_
  refine (foresees_operand tokens).chain MemberTail.tokens [] .mk (fun _ _ => rfl) .done
    (by simp [MemberTail.tokens]) ?_
  intro behind value rest yields
  have shorter := length_lt_of_outcome yields
  obtain ⟨object, split, _⟩ := exists_operand yields
  exact ⟨object, split, object.unmarked_tokens, foresees_memberTail value rest⟩
termination_by 16 * tokens.length + 2
decreasing_by all_goals omega

theorem foresees_memberTail (object : Phrase) (tokens : List Token) :
    Foresees (fun place others => outcome (memberTail place object others))
      (Begins Grammar.MemberTail.tokens) tokens := by
  refine .of_eq (outcome_memberTail · object)
    (.ite (fun atDot => ?_) fun _ => .ite (fun atBracket => ?_) fun _ => .pure _)
  · obtain ⟨dot, dotSplit⟩ := exists_cons_of_nextKind atDot (by decide)
    refine .behindToken dot (by decide) dotSplit (fun _ _ => rfl) ?_
    refine .expect (by decide) ?_ fun name rest nameSplit => ?_
    · exact ⟨.named dot (.sample .identifier) .done, _, rfl, by simp [Grammar.MemberTail.tokens]⟩
    have shorter : rest.length < tokens.length := by
      rw [dotSplit, nameSplit, List.length_cons, List.length_cons]
      omega
    refine (foresees_memberTail _ rest).weaken fun before _ begins => ?_
    exact begins.within (.named dot name) [] (by simp) fun _ _ split => by
      simp [Grammar.MemberTail.tokens, split]
  · obtain ⟨opening, openingSplit⟩ := exists_cons_of_nextKind atBracket (by decide)
    have tailShorter := length_tail_lt_of_cons openingSplit
    refine .behindToken opening (by decide) openingSplit (fun _ _ => rfl) ?_
    refine (foresees_expression tokens.tail).andThen ?_ ?_
    · intro before _ begins
      exact begins.within (.computed opening · (.sample .closeBracket) .done)
        [(Terminal.sample .closeBracket).token] (by simp) fun _ _ split => by
          simp [Grammar.MemberTail.tokens, split]
    · intro behind value rest yields
      have shorter := length_lt_of_outcome yields
      obtain ⟨property, split, _⟩ := exists_expression yields
      refine ⟨_, split, property.unmarked_tokens, .expect (by decide) ?_ ?_⟩
      · exact ⟨.computed opening property (.sample .closeBracket) .done,
          [(Terminal.sample .closeBracket).token], by simp [Grammar.MemberTail.tokens], by simp⟩
      · intro closing later closingSplit
        have laterShorter : later.length < rest.length := by
          rw [closingSplit]
          simp
        refine (foresees_memberTail _ later).weaken fun before _ begins => ?_
        exact begins.within (.computed opening property closing) [] (by simp) fun _ _ split => by
          simp [Grammar.MemberTail.tokens, split]
termination_by 16 * tokens.length
decreasing_by all_goals omega

theorem foresees_operand (tokens : List Token) :
    Foresees (fun place others => outcome (operand place others)) (Begins Grammar.Operand.tokens)
      tokens := by
  cases tokens with
  | nil => exact .nil outcome_operand_nil
  | cons first rest =>
      by_cases atName : first.kind = .identifier
      · exact .step (by rw [atName]; decide) (fun place others =>
          (outcome_operand_cons place first others).trans (if_pos atName)) (.pure _)
      by_cases atNumber : first.kind = .number
      · cases reads : Number.read? first.text with
        | some value =>
            refine .step (by rw [atNumber]; decide) (fun place others => ?_)
              (.pure (.numericLiteral value first.span))
            rw [outcome_operand_cons, if_neg atName, if_pos atNumber, reads]
        | none =>
            refine .step (by rw [atNumber]; decide) (fun place others => ?_)
              (.refuse (.malformedNumber first.text first.span) id)
            rw [outcome_operand_cons, if_neg atName, if_pos atNumber, reads]
      by_cases atParen : first.kind = .openParen
      · refine .step (by rw [atParen]; decide) (fun place others =>
          (outcome_operand_cons place first others).trans
            ((if_neg atName).trans ((if_neg atNumber).trans (if_pos atParen)))) ?_
        refine (foresees_expression rest).chain Terminal.tokens [first] (.group ⟨first, atParen⟩)
          (fun _ _ => rfl) (.sample .closeParen) (by simp [Terminal.tokens]) ?_
        intro behind inside later yields
        obtain ⟨value, split, _⟩ := exists_expression yields
        exact ⟨value, split, value.unmarked_tokens, .close (by decide) (by decide) _⟩
      · refine .offend .operand ?_ fun place others => ?_
        · exact ⟨.name (.sample .identifier), _, rfl, by simp⟩
        · exact (outcome_operand_cons place first others).trans
            ((if_neg atName).trans ((if_neg atNumber).trans (if_neg atParen)))
termination_by 16 * tokens.length + 1
decreasing_by
  subst_vars
  simp only [List.length_cons]
  omega

end

end Reading

end NanoScript
