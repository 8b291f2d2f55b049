import NanoScript.Proofs.Reading.Correspondence
import NanoScript.Proofs.Token.Extent

/-!
Contract: what is read from a source text lies inside that text.

Owns:
- the place behind all tokens of a source text;
- the places of a program and of everything in it, and the place of a syntax error.

Tokens that lie inside the text are aligned with themselves, and so is everything made of them.
-/

namespace NanoScript

open Token

namespace Reading

theorem behindAll_concat (before : List Token) (last : Token) :
    behindAll (before ++ [last]) = .empty last.span.stop := by
  unfold behindAll
  rw [List.getLast?_concat]

/-- Tokens that lie inside a text are aligned with themselves. -/
def Alignment.inside (size : Nat) : Alignment where
  tokens left right := left = right ∧ left.span.Inside size
  spans left right := left = right ∧ left.Inside size
  kind both := congrArg Token.kind both.1
  text both := congrArg Token.text both.1
  span both := ⟨congrArg Token.span both.1, both.2⟩
  merge both others :=
    ⟨congrArg₂ Span.merge both.1 others.1, both.2.merge others.2⟩

theorem Alignment.inside_programs {source : String} {tokens : List Token}
    (scans : scan source = .ok tokens) :
    (inside source.utf8ByteSize).Programs (Phrase.ofTokens tokens) (Phrase.ofTokens tokens) := by
  have derivation := scans_of_scan scans
  obtain ⟨_, inOrder⟩ := derivation.inOrder
  obtain ⟨before, split, _⟩ := derivation.exists_before
  rw [Nat.zero_add, Text.byteLength_toList] at inOrder split
  refine ofTokens_aligned (List.forall₂_same.2 fun token member => ?_) ?_
  · exact ⟨rfl, inOrder.inside token member⟩
  · rw [split, behindAll_concat]
    exact ⟨rfl, Span.inside_empty (Nat.le_refl _)⟩

theorem Alignment.Programs.inside {size : Nat} {left right : Phrase}
    (programs : (Alignment.inside size).Programs (.ok left) (.ok right)) :
    Phrase.Corresponds (Alignment.inside size).spans left right := by
  cases programs with
  | ok bodies lasts _ =>
      refine .ofLayer (.program bodies ⟨?_, Nat.zero_le _, lasts.2.bounded⟩)
      exact congrArg (fun last => Span.mk 0 last.span.stop) lasts.1

theorem Alignment.Errors.inside {size : Nat} {left right : SyntaxError}
    (errors : (Alignment.inside size).Errors left right) : left.span.Inside size := by
  cases errors with
  | unexpectedToken found => exact found.2
  | unexpectedEnd places => exact places.2
  | constantWithoutValue places => exact places.2
  | parameterNotAName places => exact places.2
  | malformedNumber found => exact found.2

end Reading

/-- Every place in a program lies inside the source text that spells it out. -/
theorem Phrase.inside_of_ofSource {source : String} {program part : Phrase} {place : Span}
    (reads : ofSource source = .ok program) (occurs : part.OccursIn program)
    (member : place ∈ part.places) : place.Inside source.utf8ByteSize := by
  cases scans : scan source with
  | error fault =>
      rw [ofSource_of_scan_error scans] at reads
      cases reads
  | ok tokens =>
      have programs := Reading.Alignment.inside_programs scans
      rw [← ofSource_of_scan scans, reads] at programs
      obtain ⟨_, _, alike⟩ := programs.inside.of_occursIn occurs
      obtain ⟨_, _, inside⟩ := alike.of_mem_places member
      exact inside

/-- A syntax error points inside the source text that it is found in. -/
theorem SyntaxError.inside_of_ofSource {source : String} {error : SyntaxError}
    (fails : Phrase.ofSource source = .error error) :
    error.span.Inside source.utf8ByteSize := by
  cases scans : scan source with
  | error fault =>
      rw [Phrase.ofSource_of_scan_error scans] at fails
      cases fails
      have inside := inside_of_unrecognized scans
      rw [Nat.zero_add, Text.byteLength_toList] at inside
      exact inside
  | ok tokens =>
      have programs := Reading.Alignment.inside_programs scans
      rw [← Phrase.ofSource_of_scan scans, fails] at programs
      cases programs with
      | error errors => exact errors.inside

end NanoScript
