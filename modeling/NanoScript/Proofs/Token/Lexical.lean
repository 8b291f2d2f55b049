import NanoScript.Proofs.Phrase.Shape
import NanoScript.Proofs.Token.Spelling

/-!
Contract: what the tokens of a source text look like.

Owns:
- lexical tokens: those whose text is a name or a plain numeral, if their kind says so;
- the tokens of a source text are lexical, up to the end-of-input mark behind them.
-/

namespace NanoScript.Token

/-- A token other than the end-of-input mark: a name has the text of a name, a number that of a
plain numeral. -/
structure IsLexical (token : Token) : Prop where
  noMark : token.kind ≠ .endOfInput
  name : token.kind = .identifier → IsName token.text
  numeral : token.kind = .number → Decimal.IsPlain token.text.toList

theorem ofWord_ne (word : String) :
    Kind.ofWord word ≠ .endOfInput ∧ Kind.ofWord word ≠ .number := by
  unfold Kind.ofWord
  split <;> exact ⟨by decide, by decide⟩

theorem ofMark?_ne {c : Char} {kind : Kind} (isMark : Kind.ofMark? c = some kind) :
    kind ≠ .endOfInput ∧ kind ≠ .identifier ∧ kind ≠ .number := by
  unfold Kind.ofMark? at isMark
  split at isMark
  all_goals
    cases isMark
    try exact ⟨by decide, by decide, by decide⟩

theorem forall_mem_takeWhile (test : Char → Bool) (rest : List Char) :
    ∀ c ∈ rest.takeWhile test, test c = true :=
  List.all_eq_true.1 List.all_takeWhile

/-- A digit and what continues it are a plain numeral. -/
theorem isPlain_numeralTail {first : Char} (digit : isDigit first = true) (rest : List Char) :
    Decimal.IsPlain (first :: numeralTail rest) := by
  have whole : ∀ c ∈ first :: rest.takeWhile isDigit, c.isDigit = true := by
    intro c member
    rcases List.mem_cons.1 member with rfl | member
    · exact digit
    · exact forall_mem_takeWhile isDigit rest c member
  unfold numeralTail
  dsimp only
  split
  · next figure later _ =>
      split
      · next figureDigit =>
          refine .fraction (List.cons_ne_nil _ _) (List.cons_ne_nil figure _) whole ?_
          intro c member
          rcases List.mem_cons.1 member with rfl | member
          · exact figureDigit
          · exact forall_mem_takeWhile isDigit later c member
      · exact .whole (List.cons_ne_nil _ _) whole
  · exact .whole (List.cons_ne_nil _ _) whole

/-- Every lexeme makes a lexical token. -/
theorem isLexical_of_lexeme {first : Char} {rest tail : List Char} {kind : Kind}
    (found : lexeme? first rest = some (kind, tail)) (span : Span) :
    IsLexical ⟨kind, String.ofList (first :: tail), span⟩ := by
  unfold lexeme? at found
  split at found
  · next letter =>
      cases found
      refine ⟨(ofWord_ne _).1, ?_, fun isNumber => absurd isNumber (ofWord_ne _).2⟩
      intro isIdentifier
      refine ⟨?_, ?_, isIdentifier⟩
      · rw [String.toList_ofList]
        exact List.cons_ne_nil _ _
      · rw [String.toList_ofList]
        intro c member
        rcases List.mem_cons.1 member with rfl | member
        · exact letter
        · exact forall_mem_takeWhile isLetter rest c member
  · split at found
    · next digit =>
        cases found
        refine ⟨by simp, by simp, fun _ => ?_⟩
        rw [String.toList_ofList]
        exact isPlain_numeralTail digit rest
    · obtain ⟨mark, isMark, same⟩ := Option.map_eq_some_iff.1 found
      cases same
      obtain ⟨noMark, notIdentifier, notNumber⟩ := ofMark?_ne isMark
      exact ⟨noMark, fun isIdentifier => absurd isIdentifier notIdentifier,
        fun isNumber => absurd isNumber notNumber⟩

theorem exists_of_scanFrom (offset : Nat) (text : List Char) {tokens : List Token}
    (found : scanFrom offset text = .ok tokens) :
    ∃ before mark, tokens = before ++ [mark] ∧ mark.kind = .endOfInput ∧
      ∀ token ∈ before, token.IsLexical := by
  induction offset, text using scanFrom.induct generalizing tokens with
  | case1 offset =>
      rw [scanFrom] at found
      cases found
      refine ⟨[], endOfInput offset, rfl, rfl, ?_⟩
      intro token member
      cases member
  | case2 offset first rest layout inductionHypothesis =>
      rw [scanFrom, if_pos layout] at found
      exact inductionHypothesis found
  | case3 offset first rest notLayout noLexeme =>
      rw [scanFrom, if_neg notLayout, noLexeme] at found
      cases found
  | case4 offset first rest notLayout kind tail lexeme stop =>
      rename_i inductionHypothesis
      rw [scanFrom, if_neg notLayout, lexeme] at found
      dsimp only at found
      cases later : scanFrom (offset + Text.byteLength (first :: tail)) (rest.drop tail.length) with
      | error fault =>
          rw [later] at found
          cases found
      | ok others =>
          rw [later] at found
          cases found
          obtain ⟨before, mark, rfl, ofKind, areLexical⟩ := inductionHypothesis later
          exact ⟨_ :: before, mark, rfl, ofKind,
            List.forall_mem_cons.2 ⟨isLexical_of_lexeme lexeme _, areLexical⟩⟩

/-- The tokens of a source text are lexical ones and the end-of-input mark behind them. -/
theorem exists_of_scan {source : String} {tokens : List Token} (found : scan source = .ok tokens) :
    ∃ before mark, tokens = before ++ [mark] ∧ mark.kind = .endOfInput ∧
      ∀ token ∈ before, token.IsLexical :=
  exists_of_scanFrom 0 source.toList found

end NanoScript.Token
