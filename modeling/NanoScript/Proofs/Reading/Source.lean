import NanoScript.Proofs.Grammar.Shape
import NanoScript.Proofs.Phrase.Occurrence
import NanoScript.Proofs.Reading.Extent
import NanoScript.Proofs.Reading.Recognition

/-!
Contract: source texts and the derivations of their programs.

Owns:
- the tokens of a source text are lexical, up to the end-of-input mark at its end;
- a source text spells out a program just if its tokens before that mark have a derivation, and the
  program covers the whole text.
-/

namespace NanoScript

open Grammar Token

namespace Grammar

theorem unmarked_of_areLexical {tokens : List Token} (areLexical : AreLexical tokens) :
    unmarked tokens = true :=
  List.all_eq_true.2 fun token member => decide_eq_true (areLexical token member).noMark

/-- Lexical tokens before an end-of-input mark are all that is read. -/
theorem beforeMark_of_areLexical {tokens : List Token} (areLexical : AreLexical tokens)
    {mark : Token} (ofKind : mark.kind = .endOfInput) :
    firstMark? (tokens ++ [mark]) = some mark ∧ beforeMark (tokens ++ [mark]) = tokens :=
  firstMark?_unmarked (unmarked_of_areLexical areLexical) ⟨mark, ofKind⟩ []

end Grammar

/-! ## Derivations of source texts -/

/-- The tokens of a source text are lexical ones and the mark at its end. -/
theorem Token.exists_lexical_of_scan {source : String} {tokens : List Token}
    (scans : scan source = .ok tokens) :
    ∃ before, tokens = before ++ [endOfInput source.utf8ByteSize] ∧ AreLexical before := by
  obtain ⟨before, split, _⟩ := (scans_of_scan scans).exists_before
  obtain ⟨others, mark, otherSplit, _, areLexical⟩ := exists_of_scan scans
  obtain ⟨rfl, _⟩ := List.append_inj' (split.symm.trans otherSplit) rfl
  rw [Nat.zero_add, Text.byteLength_toList] at split
  exact ⟨before, split, areLexical⟩

/-- A program that a source text spells out has a derivation from its tokens. -/
theorem Phrase.exists_derivation_of_ofSource {source : String} {program : Phrase}
    (reads : ofSource source = .ok program) :
    ∃ derivation : Program,
      scan source = .ok (derivation.tokens ++ [endOfInput source.utf8ByteSize]) ∧
        AreLexical derivation.tokens ∧ derivation.phrase source.utf8ByteSize = program := by
  cases scans : scan source with
  | error fault =>
      rw [ofSource_of_scan_error scans] at reads
      cases reads
  | ok tokens =>
      rw [ofSource_of_scan scans] at reads
      obtain ⟨before, rfl, areLexical⟩ := exists_lexical_of_scan scans
      have ofKind : (endOfInput source.utf8ByteSize).kind = .endOfInput := rfl
      obtain ⟨found, isBefore⟩ := beforeMark_of_areLexical areLexical ofKind
      obtain ⟨mark, isMark, derivation, derived, same⟩ := Program.exists_of_ofTokens reads
      rw [isBefore] at derived
      subst derived
      cases found.symm.trans isMark
      exact ⟨derivation, rfl, areLexical, same⟩

/-- What a source text spells out is a program over the whole text. -/
theorem Phrase.eq_program_of_ofSource {source : String} {program : Phrase}
    (reads : ofSource source = .ok program) :
    program = .program program.parts ⟨0, source.utf8ByteSize⟩ := by
  obtain ⟨derivation, _, _, rfl⟩ := exists_derivation_of_ofSource reads
  rfl

/-- A source text whose tokens have a derivation spells out the program of the derivation. -/
theorem Phrase.ofSource_of_derivation (derivation : Program) {source : String} {size : Nat}
    (scans : scan source = .ok (derivation.tokens ++ [endOfInput size])) :
    ofSource source = .ok (derivation.phrase size) := by
  obtain ⟨found, isBefore⟩ :=
    firstMark?_unmarked derivation.statements.unmarked_tokens ⟨endOfInput size, rfl⟩ []
  rw [ofSource_of_scan scans]
  exact derivation.read found isBefore.symm

end NanoScript
