import NanoScript.Proofs.Phrase.Relocation
import NanoScript.Proofs.Reading.Source

/-!
Contract: the program of two source texts, the second on the lines behind the first.

Owns:
- statements behind other statements, and where each of them ends;
- the program of tokens that are moved by a number of bytes;
- the theorem that the joined text has the statements of the first program and behind them those of
  the second, moved.

A statement without a semicolon would go on into the second text only at an opening parenthesis.
-/

namespace NanoScript

open Grammar Token

/-! ## Statements behind one another -/

namespace Grammar.Statements

/-- Statements with others behind them. -/
def append : Statements → Statements → Statements
  | .none, others => others
  | .more first rest, others => .more first (rest.append others)

theorem tokens_append (first second : Statements) :
    (first.append second).tokens = first.tokens ++ second.tokens := by
  cases first with
  | none => rfl
  | more head rest =>
      rw [append, Statements.tokens, Statements.tokens, rest.tokens_append, List.append_assoc]
termination_by structural first

theorem phrases_append (first second : Statements) :
    (first.append second).phrases = first.phrases ++ second.phrases := by
  cases first with
  | none => rfl
  | more head rest =>
      rw [append, Statements.phrases, Statements.phrases, rest.phrases_append, List.cons_append]
termination_by structural first

/-- Anything may stand before statements that do not start with a parenthesis. -/
theorem separated_append {first second : Statements} (firstSeparated : first.Separated)
    (secondSeparated : second.Separated)
    (noParen : Reading.nextKind second.tokens ≠ .openParen) :
    (first.append second).Separated := by
  cases first with
  | none => exact secondSeparated
  | more head rest =>
      obtain ⟨headSeparated, may, restSeparated⟩ := firstSeparated
      refine ⟨headSeparated, ?_, rest.separated_append restSeparated secondSeparated noParen⟩
      rw [tokens_append]
      cases rest with
      | none =>
          cases head with
          | unterminated value => exact fun atParen => absurd atParen noParen
          | _ => trivial
      | more next others =>
          have nonempty : (Statements.more next others).tokens ≠ [] :=
            fun empty => next.tokens_ne_nil (List.append_eq_nil_iff.1 empty).1
          rwa [Reading.nextKind_append nonempty]
termination_by structural first

end Grammar.Statements

/-! ## Tokens further on -/

namespace Reading

/-- Tokens correspond to themselves further on. -/
def Alignment.moved (distance : Nat) : Alignment where
  tokens left right := right = left.move distance
  spans left right := right = left.move distance
  kind same := same ▸ rfl
  text same := same ▸ rfl
  span same := same ▸ rfl
  merge := by
    rintro left _ other _ rfl rfl
    exact Span.merge_move distance left other

/-- Phrases that correspond one by one under a move are the moved ones. -/
theorem Alignment.Phrases.eq_move {distance : Nat} {left right : List Phrase}
    (phrases : List.Forall₂ (Alignment.moved distance).Phrases left right) :
    right = left.map (Phrase.move distance) := by
  induction phrases with
  | nil => rfl
  | cons heads _ inductionHypothesis =>
      rw [List.map_cons, inductionHypothesis, Phrase.Corresponds.eq_relocated heads, Phrase.move]

end Reading

/-- Tokens further on spell out the same program further on. -/
theorem Phrase.ofTokens_move {before : List Token} {last : Token} {body : List Phrase} {span : Span}
    (distance : Nat) (reads : ofTokens (before ++ [last]) = .ok (.program body span)) :
    ofTokens ((before ++ [last]).map (Token.move distance)) =
      .ok (.program (body.map (move distance)) ⟨0, span.stop + distance⟩) := by
  have programs : (Reading.Alignment.moved distance).Programs (ofTokens (before ++ [last]))
      (ofTokens ((before ++ [last]).map (Token.move distance))) := by
    refine Reading.Alignment.ofTokens_aligned ?_ ?_
    · exact List.forall₂_map_right_iff.2 (List.forall₂_same.2 fun _ _ => rfl)
    · rw [List.map_append, List.map_singleton, Reading.behindAll_concat, Reading.behindAll_concat]
      rfl
  rw [reads] at programs
  generalize ofTokens ((before ++ [last]).map (Token.move distance)) = moved at programs
  cases programs with
  | ok bodies lasts _ =>
      cases lasts
      rw [Reading.Alignment.Phrases.eq_move bodies]
      rfl

/-! ## Two source texts -/

/-- The tokens of a source text and, on a line behind it, of another one. -/
theorem Token.scan_joined {first second : String} {firstTokens secondTokens : List Token}
    (firstScan : scan first = .ok (firstTokens ++ [endOfInput first.utf8ByteSize]))
    (secondScan : scan second = .ok secondTokens) :
    scan (first ++ "\n" ++ second) =
      .ok (firstTokens ++ secondTokens.map (Token.move (first.utf8ByteSize + 1))) := by
  obtain ⟨before, split, joins⟩ := (scans_of_scan firstScan).exists_before
  obtain ⟨rfl, _⟩ := List.append_inj' split rfl
  have behind := (scans_of_scan secondScan).move (first.utf8ByteSize + 1)
  have fromBreak : Scans (0 + Text.byteLength first.toList) ('\n' :: second.toList)
      (secondTokens.map (Token.move (first.utf8ByteSize + 1))) := by
    refine .layout (by decide) ?_
    rw [Nat.zero_add] at behind ⊢
    rw [Text.byteLength_toList]
    exact behind
  have whole := joins _ _ (breaks_cons (by decide) _) fromBreak
  have characters : (first ++ "\n" ++ second).toList = first.toList ++ '\n' :: second.toList := by
    rw [String.toList_append, String.toList_append, List.append_assoc]
    rfl
  rw [scan, characters]
  exact whole.scanFrom_eq

/-- Tokens that have a derivation have one further on. -/
theorem Grammar.Program.exists_moved (derivation : Program) (size distance : Nat) :
    ∃ moved : Program, moved.tokens = derivation.tokens.map (Token.move distance) ∧
      moved.statements.phrases = derivation.statements.phrases.map (Phrase.move distance) := by
  obtain ⟨found, isBefore⟩ :=
    firstMark?_unmarked derivation.statements.unmarked_tokens ⟨endOfInput size, rfl⟩ []
  have reads := Phrase.ofTokens_move distance (derivation.read found isBefore.symm)
  have movedUnmarked : unmarked (derivation.tokens.map (Token.move distance)) = true := by
    have unmarkedTokens := derivation.statements.unmarked_tokens
    rw [unmarked, List.all_map]
    exact unmarkedTokens
  obtain ⟨_, movedBefore⟩ :=
    firstMark?_unmarked movedUnmarked ⟨(endOfInput size).move distance, rfl⟩ []
  obtain ⟨_, _, moved, derived, same⟩ := Program.exists_of_ofTokens reads
  refine ⟨moved, ?_, (Phrase.program.inj same).1⟩
  rw [derived, List.map_append]
  exact movedBefore

/-- A source text with another one behind it on a new line has the statements of both, those of the
second one moved behind the first text. -/
theorem Phrase.ofSource_joined {first second : String} {firstProgram secondProgram : Phrase}
    (firstReads : ofSource first = .ok firstProgram)
    (secondReads : ofSource second = .ok secondProgram)
    (noParen : (scan second).map Reading.nextKind ≠ .ok .openParen) :
    ofSource (first ++ "\n" ++ second) =
      .ok (.program
        (firstProgram.parts ++ secondProgram.parts.map (move (first.utf8ByteSize + 1)))
        ⟨0, (first ++ "\n" ++ second).utf8ByteSize⟩) := by
  obtain ⟨firstDerivation, firstScan, _, rfl⟩ := exists_derivation_of_ofSource firstReads
  obtain ⟨secondDerivation, secondScan, _, rfl⟩ := exists_derivation_of_ofSource secondReads
  obtain ⟨moved, movedTokens, movedPhrases⟩ :=
    secondDerivation.exists_moved second.utf8ByteSize (first.utf8ByteSize + 1)
  have movedNoParen : Reading.nextKind moved.tokens ≠ .openParen := by
    rw [movedTokens]
    cases tokens : secondDerivation.tokens with
    | nil => exact fun atParen => Token.Kind.noConfusion atParen
    | cons head rest =>
        rw [secondScan, tokens] at noParen
        exact fun atParen => noParen (congrArg Except.ok atParen)
  let joined : Program :=
    ⟨firstDerivation.statements.append moved.statements,
      Statements.separated_append firstDerivation.separated moved.separated movedNoParen⟩
  have size : (first ++ "\n" ++ second).utf8ByteSize =
      second.utf8ByteSize + (first.utf8ByteSize + 1) := by
    rw [String.utf8ByteSize_append, String.utf8ByteSize_append, Nat.add_comm]
    rfl
  have joinedTokens : joined.tokens = firstDerivation.tokens ++
      secondDerivation.tokens.map (Token.move (first.utf8ByteSize + 1)) := by
    rw [← movedTokens]
    exact Statements.tokens_append _ _
  have joinedScan : scan (first ++ "\n" ++ second) =
      .ok (joined.tokens ++ [endOfInput (first ++ "\n" ++ second).utf8ByteSize]) := by
    rw [Token.scan_joined firstScan secondScan, size, joinedTokens, List.append_assoc,
      List.map_append]
    rfl
  rw [ofSource_of_derivation joined joinedScan, Program.phrase, Statements.phrases_append,
    movedPhrases]
  rfl

end NanoScript
