import NanoScript.Proofs.Reading.Source
import NanoScript.Proofs.Reprinting.Construction
import NanoScript.Proofs.Reprinting.Statement

/-!
Contract: which programs survive being written and read back.

The program that a source text spells out is read back from its written form, up to the places of
its phrases, if and only if it is reprintable.
-/

namespace NanoScript

open Grammar Token

namespace Phrase

/-- The program that a source text spells out is a list of statements. -/
theorem exists_statements_of_ofSource {source : String} {program : Phrase}
    (reads : ofSource source = .ok program) :
    ∃ body span, program = .program body span ∧ ∀ statement ∈ body, statement.IsStatement := by
  obtain ⟨derivation, _, areLexical, rfl⟩ := exists_derivation_of_ofSource reads
  exact ⟨derivation.statements.phrases, _, rfl, derivation.statements.areStatements areLexical⟩

/-- The written form of a program is cut into its words, and read up to the end-of-input mark behind
them. -/
theorem exists_tokens_of_text {body : List Phrase}
    (shapes : ∀ statement ∈ body, statement.IsStatement) (span : Span) :
    ∃ tokens mark, Token.words tokens = (body.map Phrase.words).flatten ∧
      (firstMark? (tokens ++ [mark]) = some mark ∧ beforeMark (tokens ++ [mark]) = tokens) ∧
      ofSource (Phrase.program body span).text = ofTokens (tokens ++ [mark]) := by
  obtain ⟨tokens, mark, sameWords, _, scans⟩ := (spells_program shapes span).scan
  obtain ⟨before, last, split, ofKind, areLexical⟩ := exists_of_scan scans
  obtain ⟨rfl, same⟩ := List.append_inj' split rfl
  cases List.cons.inj same |>.1
  refine ⟨tokens, mark, ?_, beforeMark_of_areLexical areLexical ofKind, ?_⟩
  · rw [sameWords, words_program]
  · rw [ofSource, scans]

/-- A program survives being written and read back, up to places, if and only if all its numbers are
finite, its object literals and calls stand where the grammar has room for them, and each of its
statements may stand before the next one. -/
theorem ofSource_text_iff_reprintable {source : String} {program : Phrase}
    (reads : ofSource source = .ok program) :
    (∃ again, ofSource program.text = .ok again ∧ again.bare = program.bare) ↔
      program.Reprintable := by
  obtain ⟨body, span, rfl, shapes⟩ := exists_statements_of_ofSource reads
  obtain ⟨tokens, mark, sameWords, ⟨found, isBefore⟩, readsText⟩ :=
    exists_tokens_of_text shapes span
  rw [readsText]
  constructor
  · rintro ⟨again, readsAgain, alike⟩
    obtain ⟨_, _, derivation, derived, rfl⟩ := Program.exists_of_ofTokens readsAgain
    rw [isBefore] at derived
    simp only [Program.phrase, bare, rewritten_program, program.injEq, and_true] at alike
    have same : Token.words (derivation.statements.tokens ++ []) =
        (body.map Phrase.words).flatten ++ [] := by
      rw [List.append_nil, List.append_nil, show derivation.statements.tokens = _ from derived,
        sameWords]
    obtain ⟨placed, chain, shown, _⟩ := derivation.statements.recovered .program shapes
      (fun statement member => recoveredAsStatement_of_isStatement (shapes statement member)) same
      alike derivation.separated rfl rfl
    have shownAsBare : (Phrase.program body span).shown = (Phrase.program body span).bare := by
      rw [Phrase.shown, Phrase.bare, rewritten_program, rewritten_program]
      exact congrArg (Phrase.program · (Span.empty 0)) (shown.symm.trans alike)
    refine reprintable_iff.2 ⟨fun value span => isFinite_of_shown_eq_bare shownAsBare, ?_⟩
    refine .intro ⟨trivial, trivial, chain⟩ placed ?_
    intro child member
    cases member
  · intro reprintable
    obtain ⟨statements, derived, alike, separated⟩ := exists_separated_statements shapes
      (fun statement member =>
        derivableAsStatement_of_reprintable (shapes statement member) (reprintable.part member))
      (reprintable.statements _ .here) sameWords
    let derivation : Grammar.Program := ⟨statements, separated⟩
    refine ⟨derivation.phrase mark.span.stop, derivation.read found ?_, ?_⟩
    · rw [isBefore]
      exact derived
    · rw [Program.phrase, bare, rewritten_program, rewritten_program]
      exact congrArg (Phrase.program · (Span.empty 0)) alike

/-- Two statements that the written form turns into one call. -/
theorem juxtaposed_text_iff_reprintable :
    ∃ program, ofSource "a; (b + c)" = .ok program ∧
      ((∃ again, ofSource program.text = .ok again ∧ again.bare = program.bare) ↔
        program.Reprintable) := by
  cases reads : ofSource "a; (b + c)" with
  | error fault =>
      have isOk : (ofSource "a; (b + c)").isOk = true := by decide +kernel
      rw [reads] at isOk
      cases isOk
  | ok program => exact ⟨program, rfl, ofSource_text_iff_reprintable reads⟩

example : ((ofSource "a; (b + c)").toOption.bind fun program =>
    (ofSource program.text).toOption.map text) = some "a((b + c))" := by
  decide +kernel

end Phrase

end NanoScript
