import NanoScript.Proofs.Reading.Failure
import NanoScript.Proofs.Record.Phrase
import NanoScript.Proofs.Run.Blame
import NanoScript.Proofs.Run.Origin

/-!
Contract: trees made from source texts are well shaped.

Owns:
- well-shaped trees: what may stand where, what names and numbers may be;
- the program of a source text is well shaped, whatever its size;
- a source text that spells out no program fails neither on a numeral nor on an empty token;
- the theorem for sessions: a fault of a run was raised by a phrase that one of the texts wrote out,
  so that no access is ever stopped by the form of its property.

The tree type allows much more.  Evaluation has a fault for a property that is neither a name nor
computed, and reading has a failure for a numeral that is no number; source texts lead to neither.
-/

namespace NanoScript

open Token

/-! ## Well-shaped trees -/

namespace Phrase

/-- A declaration, of a variable or of a function. -/
def IsDeclaration (phrase : Phrase) : Prop :=
  phrase.kind = .variableDeclaration ∨ phrase.kind = .functionDeclaration

/-- The names, parameters and keys that a phrase writes out itself. -/
def writtenNames : Phrase → List String
  | .variableDeclaration name _ _ _ => [name]
  | .functionDeclaration name parameters _ _ => name :: parameters
  | .identifier name _ => [name]
  | .objectLiteral entries _ => entries.map Entry.key
  | _ => []

/-- A whole program: declarations are statements of it or of the body of a function, a property that
is not computed is a name, constants have values, names are names, and numbers have no sign. -/
structure WellShaped (program : Phrase) : Prop where
  root : program.kind = .program
  onlyRoot : ∀ whole child : Phrase, whole.OccursIn program →
    child ∈ whole.parts ∨ child ∈ whole.body → child.kind ≠ .program
  declarations : ∀ whole child : Phrase, whole.OccursIn program → child ∈ whole.parts →
    child.IsDeclaration → whole.kind = .program
  members : ∀ object property span, (Phrase.member object property false span).OccursIn program →
    property.kind = .identifier
  constants : ∀ name value span,
    (Phrase.variableDeclaration name value true span).OccursIn program → value ≠ none
  names : ∀ phrase : Phrase, phrase.OccursIn program → ∀ name ∈ phrase.writtenNames, IsName name
  numbers : ∀ value span, (Phrase.numericLiteral value span).OccursIn program →
    value.isNegative = false ∧ value.isNotANumber = false

/-! ## Statements -/

theorem IsExpression.not_isDeclaration {phrase : Phrase} (isExpression : phrase.IsExpression) :
    ¬ phrase.IsDeclaration := by
  cases isExpression <;> exact fun isDeclaration => isDeclaration.elim nofun nofun

/-- What sees the same scope as a statement inside it is no declaration. -/
theorem IsStatement.not_isDeclaration_of_mem_parts {whole part : Phrase}
    (isStatement : whole.IsStatement) (member : part ∈ whole.parts) : ¬ part.IsDeclaration := by
  cases isStatement with
  | declaration isName => cases member
  | initialized isName isExpression =>
      cases List.mem_singleton.1 member
      exact isExpression.not_isDeclaration
  | function isName areNames statements => cases member
  | expression isExpression => exact (isExpression.of_mem_parts member).not_isDeclaration

theorem IsStatement.isName_of_mem_writtenNames {phrase : Phrase}
    (isStatement : phrase.IsStatement) : ∀ name ∈ phrase.writtenNames, IsName name := by
  cases isStatement with
  | declaration isName => exact List.forall_mem_singleton.2 isName
  | initialized isName isExpression => exact List.forall_mem_singleton.2 isName
  | function isName areNames statements => exact List.forall_mem_cons.2 ⟨isName, areNames⟩
  | expression isExpression =>
      cases isExpression with
      | identifier isName => exact List.forall_mem_singleton.2 isName
      | objectLiteral areNames values => exact List.forall_mem_map.2 areNames
      | _ => exact nofun

/-- A program of statements is well shaped. -/
theorem wellShaped_of_statements {body : List Phrase} (span : Span)
    (statements : ∀ statement ∈ body, statement.IsStatement) :
    (Phrase.program body span).WellShaped := by
  have shapes : ∀ phrase : Phrase, phrase.OccursIn (.program body span) →
      phrase = .program body span ∨ phrase.IsStatement := by
    intro phrase occurs
    cases occurs with
    | here => exact .inl rfl
    | inPart member occurs => exact .inr ((statements _ member).of_occursIn occurs)
    | inBody member occurs => cases member
  constructor
  case root => rfl
  case onlyRoot =>
    intro whole child occurs inside
    rcases shapes whole occurs with rfl | isStatement
    · rcases inside with inParts | inBody
      · exact (statements child inParts).kind_ne
      · cases inBody
    · rcases inside with inParts | inBody
      · exact (isStatement.of_mem_parts inParts).kind_ne
      · exact (isStatement.of_mem_body inBody).kind_ne
  case declarations =>
    intro whole child occurs inParts isDeclaration
    rcases shapes whole occurs with rfl | isStatement
    · rfl
    · exact absurd isDeclaration (isStatement.not_isDeclaration_of_mem_parts inParts)
  case names =>
    intro phrase occurs
    rcases shapes phrase occurs with rfl | isStatement
    · exact nofun
    · exact isStatement.isName_of_mem_writtenNames
  case members =>
    intro object property place occurs
    rcases shapes _ occurs with impossible | isStatement
    · cases impossible
    · cases isStatement with
      | expression isExpression =>
          cases isExpression
          rfl
  case constants =>
    intro name value place occurs
    rcases shapes _ occurs with impossible | isStatement
    · cases impossible
    · cases isStatement with
      | initialized => exact nofun
      | expression isExpression => cases isExpression
  case numbers =>
    intro value place occurs
    rcases shapes _ occurs with impossible | isStatement
    · cases impossible
    · cases isStatement with
      | expression isExpression =>
          cases isExpression with
          | numericLiteral nonnegative isNumber => exact ⟨nonnegative, isNumber⟩

theorem wellShaped_of_ofSource {source : String} {program : Phrase}
    (reads : ofSource source = .ok program) : program.WellShaped := by
  obtain ⟨body, span, rfl, statements⟩ := exists_statements_of_ofSource reads
  exact wellShaped_of_statements span statements

/-- What is not recognized is a character, and its range cuts that character out of the source. -/
theorem exists_character_of_unrecognized {source : String} {fault : Token.Unrecognized}
    (fails : ofSource source = .error (.unrecognizedCharacter fault)) :
    ∃ character, fault.cause = .character character ∧
      fault.span.Cuts source character.toString := by
  cases scans : scan source with
  | ok tokens =>
      -- Readers do not report characters, since tokens are all they see.
      have programs := Reading.Alignment.inside_programs scans
      rw [← ofSource_of_scan scans, fails] at programs
      cases programs with
      | error errors => cases errors
  | error found =>
      rw [ofSource_of_scan_error scans] at fails
      cases fails
      obtain ⟨left, character, right, split, cause, _, _, span⟩ := exists_of_unrecognized scans
      rw [Nat.zero_add] at span
      refine ⟨character, cause, left, right, ?_, ?_⟩
      · rw [split]
        simp
      · rw [span]
        simp [Text.byteLength]

end Phrase

/-! ## Sessions -/

/-- More texts allow more. -/
theorem Discipline.ofTexts_admits_cons (source : String) {sources : List String} {state : State}
    (admits : (ofTexts sources).Admits state) : (ofTexts (source :: sources)).Admits state := by
  refine ⟨Nat.zero_le _, fun _ _ _ _ => trivial, ?_⟩
  intro id scope visible present entry bound function occurs statement member
  obtain ⟨earlier, listed, written⟩ :=
    admits.values id scope visible present entry bound function occurs statement member
  exact ⟨earlier, List.mem_cons_of_mem _ listed, written⟩

/-- A fault of a run in a session was raised by a phrase that one of the texts wrote out. -/
theorem exists_written_of_run_fault {depth : Nat} {sources : List String} {source : String}
    {fault : Fault}
    (fails : (run (Invoker.upTo Host.standard depth) source State.initial.1
      (State.afterRuns (Invoker.upTo Host.standard depth) sources)).1 = .error (.fault fault)) :
    ∃ text ∈ source :: sources, ∃ phrase : Phrase, phrase.WrittenIn text ∧ phrase.Raises fault := by
  have admits := Discipline.ofTexts_admits_cons source
    (Discipline.ofTexts_admits_afterRuns depth sources)
  obtain ⟨error, _, isSyntax⟩ | ⟨program, stop, after, reads, stops, isStop⟩ :=
    run_error_cases fails
  · cases isSyntax
  · have fits (size : Nat) :
        (Discipline.ofTexts (source :: sources)).fits size State.initial.1 program :=
      ⟨source, List.mem_cons_self, program, reads, .here⟩
    have ends := Discipline.evaluate_ends depth
      (State.afterRuns (Invoker.upTo Host.standard depth) sources).store.texts admits.addText
      (fits _)
    rw [stops] at ends
    cases stop with
    | tooDeep => cases isStop
    | fault raised =>
        cases isStop
        obtain ⟨_, ⟨_, _, phrase, ⟨text, listed, written⟩, raises⟩, _⟩ := ends
        exact ⟨text, listed, phrase, written, raises⟩

/-- A phrase that a source text writes out refuses no key for what phrase it is. -/
theorem Phrase.WrittenIn.key_isValue {source : String} {phrase : Phrase}
    (written : phrase.WrittenIn source) {found : Fault.Key} {span : Span}
    (raises : phrase.Raises (.invalidPropertyKey found span)) : ∃ kind, found = .value kind := by
  obtain ⟨program, reads, occurs⟩ := written
  cases raises with
  | computedKey => exact ⟨_, rfl⟩
  | @key object property whole noName =>
      have named := (wellShaped_of_ofSource reads).members object property whole occurs
      cases property with
      | identifier => cases noName
      | _ => cases named

/-- Trees made from source texts are well shaped.  Reading a text never fails on a numeral or on an
empty token, and a character that it fails on stands in the text where the failure says; the program
that is read is well shaped; and no run in a session, whatever functions of earlier runs it calls,
ever refuses a property key for being the wrong form of phrase. -/
theorem source_trees_wellShaped (source : String) :
    (∀ error, Phrase.ofSource source = .error error →
      (∀ text span, error ≠ .malformedNumber text span) ∧
        ∀ fault, error = .unrecognizedCharacter fault →
          fault.cause ≠ .invalidToken ∧
            ∃ character, fault.cause = .character character ∧
              fault.span.Cuts source character.toString) ∧
    (∀ program, Phrase.ofSource source = .ok program → program.WellShaped) ∧
    ∀ depth sources found span,
      (run (Invoker.upTo Host.standard depth) source State.initial.1
        (State.afterRuns (Invoker.upTo Host.standard depth) sources)).1 =
          .error (.fault (.invalidPropertyKey found span)) →
        ∃ kind, found = .value kind := by
  refine ⟨fun error fails => ⟨?_, ?_⟩, fun program reads => ?_, ?_⟩
  · rintro text span rfl
    exact Phrase.ofSource_ne_malformedNumber source text span fails
  · rintro fault rfl
    obtain ⟨character, cause, cuts⟩ := Phrase.exists_character_of_unrecognized fails
    refine ⟨fun isInvalid => ?_, character, cause, cuts⟩
    cases cause.symm.trans isInvalid
  · exact Phrase.wellShaped_of_ofSource reads
  · intro depth sources found span fails
    obtain ⟨_, _, phrase, written, raises⟩ := exists_written_of_run_fault fails
    exact written.key_isValue raises

/-- A function of an earlier text is called with a value that is no key, and a text stops at a
letter that is not of the basic alphabet. -/
theorem null_is_refused_as_value :
    let earlier := "let o = { a: 1 }; fn f(k) { o.a; o[k] }"
    let outcome := run (Invoker.upTo Host.standard 1) "f(null)" State.initial.1
      (State.afterRuns (Invoker.upTo Host.standard 1) [earlier])
    (∃ error, Phrase.ofSource "o.é" = .error error ∧
      ∀ fault, error = .unrecognizedCharacter fault →
        fault.cause ≠ .invalidToken ∧
          ∃ character, fault.cause = .character character ∧
            fault.span.Cuts "o.é" character.toString) ∧
      (∃ program, Phrase.ofSource earlier = .ok program ∧ program.WellShaped) ∧
      ∃ found span kind, outcome.1 = .error (.fault (.invalidPropertyKey found span)) ∧
        found = .value kind := by
  intro earlier outcome
  have stops : Phrase.ofSource "o.é" = .error (.unrecognizedCharacter ⟨.character 'é', ⟨2, 4⟩⟩) :=
    Reading.eq_error_of_map (fun _ => ()) (by decide +kernel)
  have isRead : (Phrase.ofSource earlier).isOk = true := by decide +kernel
  have fails : outcome.1 = .error (.fault (.invalidPropertyKey (.value .null) ⟨35, 36⟩)) :=
    Reading.eq_error_of_map (fun _ => ()) (by decide +kernel)
  refine ⟨⟨_, stops, ((source_trees_wellShaped "o.é").1 _ stops).2⟩, ?_, ?_⟩
  · cases reads : Phrase.ofSource earlier with
    | error error =>
        rw [reads] at isRead
        cases isRead
    | ok program => exact ⟨program, rfl, (source_trees_wellShaped earlier).2.1 program reads⟩
  · obtain ⟨kind, isValue⟩ := (source_trees_wellShaped "f(null)").2.2 1 _ _ _ fails
    exact ⟨_, _, kind, fails, isValue⟩

end NanoScript
