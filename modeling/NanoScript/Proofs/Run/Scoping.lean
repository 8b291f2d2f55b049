import NanoScript.Proofs.Evaluation.Resolution
import NanoScript.Proofs.Run.Start

/-!
Contract: well-scoped programs never use a name that stands for nothing.

Owns:
- the store that every program starts with is sound, and the names of the global scope stand for
  something in it;
- the theorem for runs from any sound store in which the free names of the program stand for
  something;
- its instance for well-scoped programs that are run from the start.
-/

namespace NanoScript

theorem State.has_initial : State.initial.2.store.Has State.initial.1 := by
  decide

theorem State.sound_initial : State.initial.2.store.Sound := by
  refine ⟨fun id parent found => ?_, fun function held => absurd held (not_holds_initial function)⟩
  obtain ⟨scope, present, outer⟩ := Option.bind_eq_some_iff.1 found
  have none : (State.initial.2.store.scopes.toList.all fun scope => scope.parent.isNone) = true :=
    rfl
  have isNone := of_scope?_initial none present
  rw [outer] at isNone
  cases isNone

theorem State.resolves_initial {name : String} (member : name ∈ Phrase.commonNames) :
    State.initial.2.store.Resolves State.initial.1 name := by
  have declared : (Phrase.commonNames.all fun name =>
      State.initial.2.store.declares State.initial.1 name) = true := by decide +kernel
  exact Store.resolves_of_declares (List.all_eq_true.1 declared name member)

/-- A program whose free names stand for something where it is run never fails on a name that stands
for nothing, and leaves a store in which all functions are closed. -/
theorem run_resolved_of_sound (depth : Nat) {source : String} {program : Phrase} {scope : ScopeId}
    {state : State} (sound : state.store.Sound) (present : state.store.Has scope)
    (reads : Phrase.ofSource source = .ok program)
    (free : ∀ name ∈ program.freeNames, state.store.Resolves scope name) :
    let outcome := run (Invoker.upTo Host.standard depth) source scope state
    (∀ name span, outcome.1 ≠ .error (.fault (.scope (.unresolved name) span))) ∧
      state.store.Extends outcome.2.store ∧ outcome.2.store.Sound := by
  intro outcome
  have grows : state.store.Extends state.addText.store := Store.extends_addText sound.parents
  have soundNow : state.addText.store.Sound := sound.addText
  have isThere : state.addText.store.Has scope := grows.has present
  obtain ⟨resolved, keeps⟩ := program.evaluate_resolved depth state.store.texts soundNow isThere
    fun name inProgram => grows.resolves present (free name inProgram)
  rw [show outcome = _ from run_of_reads _ reads]
  exact ⟨resolved, grows.trans keeps.grows, keeps.sound soundNow⟩

/-- A well-scoped program that is run from the start never fails on a name that stands for nothing,
wherever its functions are kept and from wherever they are called. -/
theorem run_resolved_of_wellScoped (depth : Nat) {source : String} {program : Phrase}
    (reads : Phrase.ofSource source = .ok program) (wellScoped : program.WellScoped)
    (name : String) (span : Span) :
    (run (Invoker.upTo Host.standard depth) source State.initial.1 State.initial.2).1 ≠
      .error (.fault (.scope (.unresolved name) span)) := by
  obtain ⟨resolved, _⟩ := run_resolved_of_sound depth State.sound_initial State.has_initial reads
    fun name free => State.resolves_initial (wellScoped name free)
  exact resolved name span

/-- A function that is returned out of the function that declares it, and called behind it. -/
theorem returned_function_resolved :
    let source := "fn f(n) { fn g() { n } g } let h = f(2); print(h())"
    let outcome := run (Invoker.upTo Host.standard 2) source State.initial.1 State.initial.2
    (∃ program, Phrase.ofSource source = .ok program ∧ program.WellScoped ∧
      ∀ name span, outcome.1 ≠ .error (.fault (.scope (.unresolved name) span))) ∧
      outcome.2.output = #["2"] := by
  intro source outcome
  have isScoped : (Phrase.ofSource source).map (fun program => decide program.WellScoped) =
      .ok true := by decide +kernel
  have prints : outcome.2.output = #["2"] := by decide +kernel
  revert isScoped
  cases reads : Phrase.ofSource source <;> intro isScoped
  · cases isScoped
  · have wellScoped := of_decide_eq_true (Except.ok.inj isScoped)
    exact ⟨⟨_, rfl, wellScoped, run_resolved_of_wellScoped 2 reads wellScoped⟩, prints⟩

end NanoScript
