import NanoScript.Proofs.Evaluation.Constants
import NanoScript.Proofs.Reading.Extent
import NanoScript.Proofs.Run.Start

/-!
Contract: the source text that a failure of a run points into.

Owns:
- the places of the faults that a phrase raises;
- the phrases that source texts write out, and sessions, runs one after the other in the global
  scope;
- the theorem that a failure points into the text that was run, unless a function that an earlier
  text declared raised it; then it points into that earlier text.

The bodies of functions outlive the run that declared them, and so do their places.
-/

namespace NanoScript

open Relation

/-! ## Faults -/

/-- A fault points at the place of something in the phrase that raises it. -/
theorem Phrase.Raises.exists_place {phrase : Phrase} {fault : Fault}
    (raises : phrase.Raises fault) :
    ∃ part : Phrase, part.OccursIn phrase ∧ fault.span ∈ part.places := by
  have here {part : Phrase} : part.span ∈ part.places := List.mem_cons_self
  cases raises with
  | declared => exact ⟨_, .here, here⟩
  | functionDeclared => exact ⟨_, .here, here⟩
  | unresolved => exact ⟨_, .here, here⟩
  | shorthandUnresolved member =>
      exact ⟨_, .here, List.mem_cons_of_mem _ (List.mem_map_of_mem member)⟩
  | division divides => exact ⟨_, .here, here⟩
  | target noName => exact ⟨_, .of_parts List.mem_cons_self, here⟩
  | targetUnresolved named => exact ⟨_, .of_parts List.mem_cons_self, here⟩
  | targetConstant named => exact ⟨_, .of_parts List.mem_cons_self, here⟩
  | arity => exact ⟨_, .here, here⟩
  | parameterRepeated => exact ⟨_, .here, here⟩
  | callee => exact ⟨_, .of_parts List.mem_cons_self, here⟩
  | object => exact ⟨_, .of_parts List.mem_cons_self, here⟩
  | computedKey => exact ⟨_, .of_parts (List.mem_cons_of_mem _ List.mem_cons_self), here⟩
  | key noName => exact ⟨_, .of_parts (List.mem_cons_of_mem _ List.mem_cons_self), here⟩

/-! ## Phrases that source texts write out -/

/-- A phrase occurs in the program that a source text spells out. -/
def Phrase.WrittenIn (source : String) (phrase : Phrase) : Prop :=
  ∃ program, ofSource source = .ok program ∧ phrase.OccursIn program

theorem Phrase.WrittenIn.inside {source : String} {whole part : Phrase}
    (written : whole.WrittenIn source) (occurs : part.OccursIn whole) : part.WrittenIn source := by
  obtain ⟨program, reads, inProgram⟩ := written
  exact ⟨program, reads, occurs.trans inProgram⟩

/-- A fault of a phrase that a source text writes out points into that text. -/
theorem Phrase.Raises.inside {source : String} {phrase : Phrase} {fault : Fault}
    (raises : phrase.Raises fault) (written : phrase.WrittenIn source) :
    fault.span.Inside source.utf8ByteSize := by
  obtain ⟨part, occurs, isPlace⟩ := raises.exists_place
  obtain ⟨program, reads, inProgram⟩ := written
  exact Phrase.inside_of_ofSource reads (occurs.trans inProgram) isPlace

/-- The evaluations of phrases that some source texts write out. -/
def Discipline.ofTexts (sources : List String) : Discipline :=
  .ofStock (fun phrase => ∃ source ∈ sources, phrase.WrittenIn source)
    (fun ⟨source, listed, written⟩ member => ⟨source, listed, written.inside (.of_parts member)⟩)
    (fun ⟨source, listed, written⟩ member => ⟨source, listed, written.inside (.of_body member)⟩)

/-! ## Sessions -/

/-- The state that source texts leave that are run one after the other in the global scope. -/
def State.afterRuns (invoker : Invoker) (sources : List String) : State :=
  sources.foldl (fun state source => (run invoker source State.initial.1 state).2) State.initial.2

theorem Discipline.ofTexts_admits_initial (sources : List String) :
    (Discipline.ofTexts sources).Admits State.initial.2 := by
  refine ⟨Nat.zero_le _, fun _ _ _ _ => trivial, ?_⟩
  intro id scope _ present entry bound function occurs
  exact absurd ⟨id, scope, present, entry, bound, occurs⟩ (State.not_holds_initial function)

/-- A run leaves a state in which every function comes from one of the texts. -/
theorem Discipline.ofTexts_admits_run (depth : Nat) {sources : List String} {source : String}
    (listed : source ∈ sources) (scope : ScopeId) {state : State}
    (admits : (Discipline.ofTexts sources).Admits state) :
    (Discipline.ofTexts sources).Admits
      (run (Invoker.upTo Host.standard depth) source scope state).2 := by
  cases reads : Phrase.ofSource source with
  | error error =>
      rw [run_of_fails _ reads]
      exact admits
  | ok program =>
      rw [run_of_reads _ reads]
      have fits : (Discipline.ofTexts sources).fits state.addText.size scope program :=
        ⟨source, listed, program, reads, .here⟩
      have changes := evaluate_changes depth state.store.texts admits.addText fits
      exact admits_of_changes changes admits.addText

theorem Discipline.ofTexts_admits_afterRuns (depth : Nat) (sources : List String) :
    (Discipline.ofTexts sources).Admits
      (State.afterRuns (Invoker.upTo Host.standard depth) sources) := by
  have each (texts : List String) (listed : ∀ source ∈ texts, source ∈ sources) (state : State)
      (admits : (Discipline.ofTexts sources).Admits state) :
      (Discipline.ofTexts sources).Admits
        (texts.foldl (fun state source =>
          (run (Invoker.upTo Host.standard depth) source State.initial.1 state).2) state) := by
    induction texts generalizing state with
    | nil => exact admits
    | cons source rest inductionHypothesis =>
        refine inductionHypothesis (fun other member => listed other (.tail _ member)) _ ?_
        exact ofTexts_admits_run depth (listed source List.mem_cons_self) _ admits
  exact each sources (fun _ member => member) _ (ofTexts_admits_initial sources)

/-- A failure is a fault that was raised in the body of a function that a state holds, by a phrase
that a source text writes out. -/
def Failure.StemsFrom (state : State) (source : String) (failure : Failure) : Prop :=
  ∃ fault function, ∃ statement phrase : Phrase,
    failure = .fault fault ∧ state.store.Holds function ∧ statement ∈ function.body ∧
      phrase.OccursIn statement ∧ phrase.Raises fault ∧ phrase.WrittenIn source

/-- A failure of a run points into the source text that was run, or it stems from the body of a
function held from an earlier run, and points into the earlier source text that wrote it. -/
theorem run_failure_inside (depth : Nat) (sources : List String) (source : String)
    {failure : Failure}
    (fails : (run (Invoker.upTo Host.standard depth) source State.initial.1
      (State.afterRuns (Invoker.upTo Host.standard depth) sources)).1 = .error failure) :
    failure.span.Inside source.utf8ByteSize ∨
      ∃ earlier ∈ sources, failure.span.Inside earlier.utf8ByteSize ∧
        failure.StemsFrom (State.afterRuns (Invoker.upTo Host.standard depth) sources)
          earlier := by
  have admits := Discipline.ofTexts_admits_afterRuns depth sources
  revert fails admits
  generalize State.afterRuns (Invoker.upTo Host.standard depth) sources = state
  intro fails admits
  cases reads : Phrase.ofSource source with
  | error error =>
      rw [run_of_fails _ reads] at fails
      cases fails
      exact .inl (SyntaxError.inside_of_ofSource reads)
  | ok program =>
      rw [run_of_reads _ reads, Evaluation.outcome_apply] at fails
      have fits : (Discipline.ofEvaluation state program).fits state.addText.size State.initial.1
        program := .inl .here
      have ends := Discipline.evaluate_ends depth state.store.texts
        (Discipline.ofEvaluation_admits state program).addText fits
      cases result : program.evaluate ((Invoker.upTo Host.standard depth).within
          state.store.texts) State.initial.1 state.addText with
      | ok value after =>
          rw [result] at fails
          cases fails
      | error stop after =>
          rw [result] at fails ends
          cases fails
          cases stop with
          | tooDeep => exact .inl (Span.inside_empty (Nat.zero_le _))
          | fault fault =>
              obtain ⟨_, ⟨_, _, phrase, stock, raises⟩, _⟩ := ends
              rcases stock with inProgram | ⟨function, held, statement, member, inStatement⟩
              · exact .inl (raises.inside ⟨program, reads, inProgram⟩)
              · obtain ⟨id, holder, present, entry, bound, occurs⟩ := held
                obtain ⟨earlier, listed, written⟩ :=
                  admits.values id holder trivial present entry bound function occurs statement
                    member
                have fromEarlier := written.inside inStatement
                exact .inr ⟨earlier, listed, raises.inside fromEarlier, fault, function, statement,
                  phrase, rfl, ⟨id, holder, present, entry, bound, occurs⟩, member, inStatement,
                  raises, fromEarlier⟩

/-- A function is declared in one text and called in a shorter one. -/
theorem call_of_earlier_function_fails :
    (run (Invoker.upTo Host.standard 1) "f()" State.initial.1
        (State.afterRuns (Invoker.upTo Host.standard 1) ["fn f() { let a = 1; q }"])).1 =
      .error (.fault (.scope (.unresolved "q") ⟨20, 21⟩)) :=
  Reading.eq_error_of_map (fun _ => ()) (by decide +kernel)

/-- The fault of the called function points behind the end of the text that was run, and stems from
the text that declared the function. -/
theorem called_fault_stems_from_declaration :
    ∃ failure,
      (run (Invoker.upTo Host.standard 1) "f()" State.initial.1
          (State.afterRuns (Invoker.upTo Host.standard 1) ["fn f() { let a = 1; q }"])).1 =
        .error failure ∧
      ¬ failure.span.Inside "f()".utf8ByteSize ∧
      ∃ earlier ∈ ["fn f() { let a = 1; q }"], failure.span.Inside earlier.utf8ByteSize ∧
        failure.StemsFrom
          (State.afterRuns (Invoker.upTo Host.standard 1) ["fn f() { let a = 1; q }"])
          earlier := by
  have outside : ¬ (Failure.fault (.scope (.unresolved "q") ⟨20, 21⟩)).span.Inside
      "f()".utf8ByteSize := by decide
  refine ⟨_, call_of_earlier_function_fails, outside, ?_⟩
  rcases run_failure_inside 1 _ _ call_of_earlier_function_fails with inside | stems
  · exact absurd inside outside
  · exact stems

/-- A failure need not point into the text that was run. -/
theorem failure_not_inside_source :
    ¬ ∀ depth sources source failure,
      (run (Invoker.upTo Host.standard depth) source State.initial.1
        (State.afterRuns (Invoker.upTo Host.standard depth) sources)).1 = .error failure →
      failure.span.Inside source.utf8ByteSize := by
  intro always
  have inside := always 1 _ _ _ call_of_earlier_function_fails
  exact absurd inside (by decide)

end NanoScript
