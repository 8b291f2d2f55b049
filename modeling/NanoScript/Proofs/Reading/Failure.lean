import NanoScript.Proofs.Reading.Source

/-!
Contract: what the reading of a source text does not fail on.

Owns:
- the numeral of every number token of a source text is read.

A list of tokens made by other means may hold a number token with any text; the readers have a
failure for it.
-/

namespace NanoScript

open Token

/-! ## Numerals -/

theorem Decimal.IsPlain.exists_read? {text : List Char} (isPlain : Decimal.IsPlain text) :
    ∃ number, Number.read? (String.ofList text) = some number := by
  rw [Number.read?_plain isPlain]
  cases isPlain with
  | whole nonempty areDigits => exact ⟨_, congrArg _ (Decimal.read?_whole nonempty areDigits)⟩
  | fraction nonempty _ areDigits placesAreDigits =>
      exact ⟨_, congrArg _ (Decimal.read?_fraction nonempty areDigits placesAreDigits)⟩

/-- The text of a token is read as a number if the kind of the token says that it is one. -/
def Token.IsReadable (token : Token) : Prop :=
  token.kind = .number → Number.read? token.text ≠ none

theorem Token.IsLexical.isReadable {token : Token} (isLexical : token.IsLexical) :
    token.IsReadable := by
  intro isNumber
  obtain ⟨number, reads⟩ := (isLexical.numeral isNumber).exists_read?
  rw [String.ofList_toList] at reads
  rw [reads]
  exact nofun

/-- Tokens whose numerals are read are aligned with themselves. -/
def Reading.Alignment.readable : Reading.Alignment where
  tokens left right := left = right ∧ left.IsReadable
  spans left right := left = right
  kind both := congrArg Token.kind both.1
  text both := congrArg Token.text both.1
  span both := congrArg Token.span both.1
  merge both others := congrArg₂ Span.merge both others

theorem Reading.Alignment.Errors.ne_malformedNumber {left right : SyntaxError}
    (errors : Reading.Alignment.readable.Errors left right) (text : String) (span : Span) :
    left ≠ .malformedNumber text span := by
  cases errors with
  | malformedNumber found isNumber unreadable => exact absurd unreadable (found.2 isNumber)
  | _ => exact nofun

theorem Phrase.ofTokens_ne_malformedNumber {tokens : List Token}
    (areReadable : ∀ token ∈ tokens, token.IsReadable) (text : String) (span : Span) :
    Phrase.ofTokens tokens ≠ .error (.malformedNumber text span) := by
  intro fails
  have aligned : List.Forall₂ Reading.Alignment.readable.tokens tokens tokens :=
    List.forall₂_same.2 fun token member => ⟨rfl, areReadable token member⟩
  have programs := Reading.Alignment.ofTokens_aligned aligned rfl
  rw [fails] at programs
  cases programs with
  | error errors => exact errors.ne_malformedNumber text span rfl

/-- No source text fails on a numeral. -/
theorem Phrase.ofSource_ne_malformedNumber (source text : String) (span : Span) :
    Phrase.ofSource source ≠ .error (.malformedNumber text span) := by
  cases scans : scan source with
  | error fault =>
      rw [ofSource_of_scan_error scans]
      exact nofun
  | ok tokens =>
      rw [ofSource_of_scan scans]
      obtain ⟨before, rfl, areLexical⟩ := exists_lexical_of_scan scans
      refine ofTokens_ne_malformedNumber (List.forall_mem_append.2 ⟨?_, ?_⟩) text span
      · exact fun token member => (areLexical token member).isReadable
      · intro mark member isNumber
        rw [List.mem_singleton.1 member] at isNumber
        cases isNumber

end NanoScript
