import NanoScript.Program
import NanoScript.Scope.Lemmas

/-!
Contract: what the primitive computations do to a state.

Owns:
- the changes of a state: a name bound, a scope made, a line printed, a text read;
- one equation for each primitive computation: applied to a state, it gives an outcome and the state
  left.

Proofs about evaluation use these equations and never open a computation themselves.
-/

namespace NanoScript

namespace State

/-- How many scopes there are. -/
def size (state : State) : Nat :=
  state.store.scopes.size

/-- The state in which a name of one scope stands for something else. -/
def bind (state : State) (owner : ScopeId) (name : String) (binding : Binding) : State :=
  ⟨state.store.bind owner name binding, state.output⟩

/-- The state in which one more text was read. -/
def addText (state : State) : State :=
  ⟨state.store.addText.2, state.output⟩

/-- The state with one more scope. -/
def addEnclosed (state : State) (parent : ScopeId) : State :=
  ⟨(state.store.addEnclosed parent).2, state.output⟩

/-- The state after one more line was printed. -/
def print (state : State) (line : String) : State :=
  ⟨state.store, state.output.push line⟩

@[simp] theorem size_bind (state : State) (owner : ScopeId) (name : String) (binding : Binding) :
    (state.bind owner name binding).size = state.size :=
  Array.size_modify

@[simp] theorem size_addText (state : State) : state.addText.size = state.size :=
  rfl

@[simp] theorem size_addEnclosed (state : State) (parent : ScopeId) :
    (state.addEnclosed parent).size = state.size + 1 :=
  Array.size_push _

@[simp] theorem size_print (state : State) (line : String) :
    (state.print line).size = state.size :=
  rfl

end State

namespace Evaluation

variable {α β : Type}

theorem bind_apply (first : Evaluation α) (next : α → Evaluation β) (state : State) :
    (first >>= next) state =
      match first state with
      | .ok value after => next value after
      | .error stop after => .error stop after := by
  change EStateM.bind first next state = _
  unfold EStateM.bind
  cases first state <;> rfl

theorem fail_apply (fault : Fault) (state : State) :
    (fail fault : Evaluation α) state = .error (.fault fault) state :=
  rfl

theorem store_apply (state : State) : store state = .ok state.store state :=
  rfl

theorem addEnclosed_apply (parent : ScopeId) (state : State) :
    addEnclosed parent state =
      .ok ⟨state.size⟩ (state.addEnclosed parent) :=
  rfl

theorem bindWhere_apply (find : Store → Except ScopeError ScopeId) (name : String)
    (binding : Binding) (span : Span) (state : State) :
    bindWhere find name binding span state =
      match find state.store with
      | .ok owner => .ok () (state.bind owner name binding)
      | .error error => .error (.fault (.scope error span)) state := by
  unfold bindWhere
  rw [bind_apply, store_apply]
  dsimp only
  cases find state.store <;> rfl

theorem lookup_apply (scope : ScopeId) (name : String) (span : Span) (state : State) :
    lookup scope name span state =
      match state.store.lookup scope name with
      | .ok value => .ok value state
      | .error error => .error (.fault (.scope error span)) state := by
  unfold lookup
  rw [bind_apply, store_apply]
  dsimp only
  cases state.store.lookup scope name <;> rfl

theorem declare_apply (scope : ScopeId) (name : String) (value : Value) (constant : Bool)
    (span : Span) (state : State) :
    declare scope name value constant span state =
      if state.store.declares scope name then
        .error (.fault (.scope (.alreadyDeclared name) span)) state
      else .ok value (state.bind scope name ⟨value, constant⟩) := by
  unfold declare
  rw [bind_apply, bindWhere_apply]
  unfold Store.declarable
  cases state.store.declares scope name <;> rfl

theorem assign_apply (scope : ScopeId) (name : String) (value : Value) (span : Span)
    (state : State) :
    assign scope name value span state =
      match state.store.assignable scope name with
      | .ok owner => .ok value (state.bind owner name ⟨value, false⟩)
      | .error error => .error (.fault (.scope error span)) state := by
  unfold assign
  rw [bind_apply, bindWhere_apply]
  cases state.store.assignable scope name <;> rfl

theorem outcome_apply (computation : Evaluation α) (state : State) :
    computation.outcome state =
      match computation state with
      | .ok value after => (.ok value, after)
      | .error stop after => (.error (.ofStop stop), after) :=
  rfl

theorem outcome_bind_of_ok {first : Evaluation α} {state : State} {value : α}
    (gives : (first.outcome state).1 = .ok value) (next : α → Evaluation β) :
    (first >>= next).outcome state = (next value).outcome (first.outcome state).2 := by
  rw [outcome_apply] at gives
  rw [outcome_apply, outcome_apply, outcome_apply, bind_apply]
  cases result : first state with
  | ok found after =>
      rw [result] at gives
      cases gives
      rfl
  | error stop after =>
      rw [result] at gives
      cases gives

theorem outcome_bind_of_error {first : Evaluation α} {state : State} {failure : Failure}
    (fails : (first.outcome state).1 = .error failure) (next : α → Evaluation β) :
    (first >>= next).outcome state = (.error failure, (first.outcome state).2) := by
  rw [outcome_apply] at fails
  rw [outcome_apply, outcome_apply, bind_apply]
  cases result : first state with
  | ok found after =>
      rw [result] at fails
      cases fails
  | error stop after =>
      rw [result] at fails
      cases fails
      rfl

/-! ## Computations on scopes and operations on the store -/

theorem run_declare (scope : ScopeId) (name : String) (value : Value) (constant : Bool)
    (span : Span) (state : State) :
    (declare scope name value constant span).run state =
      match state.store.declare scope name value constant with
      | .ok store => .ok value { state with store := store }
      | .error error => .error (.fault (.scope error span)) state := by
  change declare scope name value constant span state = _
  rw [declare_apply]
  unfold Store.declare Store.declarable
  cases state.store.declares scope name <;> rfl

theorem run_assign (scope : ScopeId) (name : String) (value : Value) (span : Span)
    (state : State) :
    (assign scope name value span).run state =
      match state.store.assign scope name value with
      | .ok store => .ok value { state with store := store }
      | .error error => .error (.fault (.scope error span)) state := by
  change assign scope name value span state = _
  rw [assign_apply]
  unfold Store.assign
  cases state.store.assignable scope name <;> rfl

end Evaluation

/-! ## Runs -/

section

variable {source : String} {scope : ScopeId} {state : State}

/-- A run of a program is the evaluation of that program as the next text. -/
theorem run_of_reads (invoker : Invoker) {program : Phrase}
    (reads : Phrase.ofSource source = .ok program) :
    run invoker source scope state =
      (program.evaluate (invoker.within state.store.texts) scope).outcome state.addText := by
  unfold run
  rw [reads]
  rfl

/-- A text that is no program changes nothing. -/
theorem run_of_fails (invoker : Invoker) {error : SyntaxError}
    (fails : Phrase.ofSource source = .error error) :
    run invoker source scope state = (.error (.syntaxError error), state) := by
  unfold run
  rw [fails]

/-- A run fails on a text that is no program, or because the evaluation of the program stops. -/
theorem run_error_cases {invoker : Invoker} {failure : Failure}
    (fails : (run invoker source scope state).1 = .error failure) :
    (∃ error, Phrase.ofSource source = .error error ∧ failure = .syntaxError error) ∨
      ∃ program stop after, Phrase.ofSource source = .ok program ∧
        program.evaluate (invoker.within state.store.texts) scope state.addText =
          .error stop after ∧ failure = .ofStop stop := by
  cases reads : Phrase.ofSource source with
  | error error =>
      rw [run_of_fails _ reads] at fails
      cases fails
      exact .inl ⟨error, rfl, rfl⟩
  | ok program =>
      rw [run_of_reads _ reads, Evaluation.outcome_apply] at fails
      cases result : program.evaluate (invoker.within state.store.texts) scope state.addText with
      | ok value after =>
          rw [result] at fails
          cases fails
      | error stop after =>
          rw [result] at fails
          cases fails
          exact .inr ⟨program, stop, after, rfl, result, rfl⟩

end

end NanoScript
