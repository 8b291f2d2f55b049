import Mathlib.Data.List.Induction
import Mathlib.Data.List.Nodup
import NanoScript.Proofs.Evaluation.Primitive
import NanoScript.Proofs.Scope.Chain

/-!
Contract: how a declared function is entered.

Owns:
- the first name of a list that stands in front of itself already;
- the state after bindings were made one after the other in one scope, and what is seen of it;
- entering a function, and the state in which its body starts: one scope more, in which the
  parameters and nothing else are declared;
- the theorem that a call either enters its function like that and runs the body from there, or
  fails before anything that was there is changed.
-/

namespace NanoScript

/-! ## Repeated names -/

/-- The name stands in the list for a second time, and no other name does so before. -/
def FirstRepeated (names : List String) (name : String) : Prop :=
  ∃ before after, names = before ++ name :: after ∧ before.Nodup ∧ name ∈ before

theorem exists_firstRepeated {names : List String} (repeated : ¬ names.Nodup) :
    ∃ name, FirstRepeated names name := by
  induction names using List.reverseRecOn with
  | nil => exact absurd List.nodup_nil repeated
  | append_singleton before last inductionHypothesis =>
      by_cases distinct : before.Nodup
      · refine ⟨last, before, [], rfl, distinct, Decidable.byContradiction fun elsewhere => ?_⟩
        apply repeated
        rw [← List.concat_eq_append]
        exact distinct.concat elsewhere
      · obtain ⟨name, earlier, later, split, first, again⟩ := inductionHypothesis distinct
        refine ⟨name, earlier, later ++ [last], ?_, first, again⟩
        rw [split, List.append_assoc, List.cons_append]

/-! ## Bindings made one after the other -/

/-- The state in which names of one scope stand for values, none of them constant. -/
def State.bindAll (state : State) (owner : ScopeId) (bindings : List (String × Value)) : State :=
  bindings.foldl (fun state binding => state.bind owner binding.1 ⟨binding.2, false⟩) state

namespace State

variable {state : State} {owner other : ScopeId} {name : String} {value : Value}

theorem bindAll_cons (state : State) (owner : ScopeId) (name : String) (value : Value)
    (rest : List (String × Value)) :
    state.bindAll owner ((name, value) :: rest) =
      (state.bind owner name ⟨value, false⟩).bindAll owner rest :=
  rfl

@[simp] theorem output_bindAll (state : State) (owner : ScopeId)
    (bindings : List (String × Value)) : (state.bindAll owner bindings).output = state.output := by
  induction bindings generalizing state with
  | nil => rfl
  | cons head rest inductionHypothesis => exact inductionHypothesis _

@[simp] theorem has_bindAll {bindings : List (String × Value)} :
    (state.bindAll owner bindings).store.Has other ↔ state.store.Has other := by
  induction bindings generalizing state with
  | nil => exact Iff.rfl
  | cons head rest inductionHypothesis => exact inductionHypothesis.trans Store.has_bind

@[simp] theorem parent?_bindAll (bindings : List (String × Value)) :
    (state.bindAll owner bindings).store.parent? other = state.store.parent? other := by
  induction bindings generalizing state with
  | nil => rfl
  | cons head rest inductionHypothesis =>
      exact inductionHypothesis.trans (Store.parent?_bind ..)

@[simp] theorem depth_bindAll (bindings : List (String × Value)) :
    (state.bindAll owner bindings).store.depth other = state.store.depth other := by
  induction bindings generalizing state with
  | nil => rfl
  | cons head rest inductionHypothesis => exact inductionHypothesis.trans (Store.depth_bind ..)

theorem scope?_bindAll_of_ne (bindings : List (String × Value)) (elsewhere : other ≠ owner) :
    (state.bindAll owner bindings).store.scope? other = state.store.scope? other := by
  induction bindings generalizing state with
  | nil => rfl
  | cons head rest inductionHypothesis =>
      refine inductionHypothesis.trans ?_
      exact (Store.scope?_bind ..).trans (if_neg elsewhere)

theorem binding?_bindAll_of_not_mem {bindings : List (String × Value)}
    (elsewhere : name ∉ bindings.map Prod.fst) :
    (state.bindAll owner bindings).store.binding? owner name = state.store.binding? owner name := by
  induction bindings generalizing state with
  | nil => rfl
  | cons head rest inductionHypothesis =>
      rw [List.map_cons, List.mem_cons, not_or] at elsewhere
      refine (inductionHypothesis elsewhere.2).trans ?_
      exact Store.binding?_bind_of_elsewhere fun both => elsewhere.1 both.2

@[simp] theorem isConstant_bindAll (bindings : List (String × Value)) :
    (state.bindAll owner bindings).store.isConstant other name =
      state.store.isConstant other name := by
  induction bindings generalizing state with
  | nil => rfl
  | cons head rest inductionHypothesis =>
      exact inductionHypothesis.trans (Store.isConstant_bind_variable ..)

/-- Under distinct names each stands for its own value. -/
theorem binding?_bindAll_of_mem {bindings : List (String × Value)}
    (present : state.store.Has owner)
    (unmarked : ∀ name, state.store.isConstant owner name = false)
    (distinct : (bindings.map Prod.fst).Nodup) (member : (name, value) ∈ bindings) :
    (state.bindAll owner bindings).store.binding? owner name = some ⟨value, false⟩ := by
  induction bindings generalizing state with
  | nil => cases member
  | cons head rest inductionHypothesis =>
      obtain ⟨key, first⟩ := head
      rw [List.map_cons, List.nodup_cons] at distinct
      rw [bindAll_cons]
      rcases List.mem_cons.1 member with here | inRest
      · cases here
        rw [binding?_bindAll_of_not_mem distinct.1]
        refine Store.binding?_bind_self present _ fun marked => ?_
        rw [unmarked] at marked
        cases marked
      · refine inductionHypothesis (Store.has_bind.2 present) (fun name => ?_) distinct.2 inRest
        exact (Store.isConstant_bind_variable ..).trans (unmarked name)

/-- A scope that declared nothing declares the names of the bindings and no others. -/
theorem binding?_bindAll_iff {bindings : List (String × Value)} {binding : Binding}
    (present : state.store.Has owner) (empty : ∀ name, state.store.binding? owner name = none)
    (unmarked : ∀ name, state.store.isConstant owner name = false)
    (distinct : (bindings.map Prod.fst).Nodup) :
    (state.bindAll owner bindings).store.binding? owner name = some binding ↔
      binding.constant = false ∧ (name, binding.value) ∈ bindings := by
  constructor
  · intro bound
    have listed : name ∈ bindings.map Prod.fst := by
      refine Decidable.byContradiction fun elsewhere => ?_
      rw [binding?_bindAll_of_not_mem elsewhere, empty name] at bound
      cases bound
    obtain ⟨⟨key, value⟩, member, same⟩ := List.mem_map.1 listed
    cases same
    rw [binding?_bindAll_of_mem present unmarked distinct member] at bound
    cases bound
    exact ⟨rfl, member⟩
  · rintro ⟨changeable, member⟩
    rw [binding?_bindAll_of_mem present unmarked distinct member, ← changeable]

end State

/-! ## Declaring parameters -/

namespace Evaluation

variable {scope : ScopeId} {state : State}

theorem declareAll_cons_apply (scope : ScopeId) (span : Span) (name : String) (value : Value)
    (rest : List (String × Value)) (state : State) :
    declareAll scope span ((name, value) :: rest) state =
      if state.store.declares scope name then
        .error (.fault (.scope (.alreadyDeclared name) span)) state
      else declareAll scope span rest (state.bind scope name ⟨value, false⟩) := by
  rw [declareAll, bind_apply, bindWhere_apply, Store.declarable]
  cases state.store.declares scope name <;> rfl

/-- Distinct names that are not declared yet are all declared, whatever is declared behind them. -/
theorem declareAll_append_apply {first : List (String × Value)}
    (distinct : (first.map Prod.fst).Nodup)
    (unbound : ∀ name ∈ first.map Prod.fst, state.store.binding? scope name = none)
    (span : Span) (rest : List (String × Value)) :
    declareAll scope span (first ++ rest) state =
      declareAll scope span rest (state.bindAll scope first) := by
  induction first generalizing state with
  | nil => rfl
  | cons head first inductionHypothesis =>
      obtain ⟨name, value⟩ := head
      rw [List.map_cons, List.nodup_cons] at distinct
      rw [List.cons_append, declareAll_cons_apply, Store.declares, unbound name List.mem_cons_self]
      refine inductionHypothesis distinct.2 fun key member => ?_
      have elsewhere : ¬ (scope = scope ∧ key = name) := fun both => distinct.1 (both.2 ▸ member)
      exact (Store.binding?_bind_of_elsewhere elsewhere).trans
        (unbound key (List.mem_cons_of_mem _ member))

/-- In a scope that declares nothing, distinct names are all declared. -/
theorem declareAll_apply_of_nodup {bindings : List (String × Value)}
    (empty : ∀ name, state.store.binding? scope name = none)
    (distinct : (bindings.map Prod.fst).Nodup) (span : Span) :
    declareAll scope span bindings state = .ok () (state.bindAll scope bindings) := by
  have declared := declareAll_append_apply distinct (fun name _ => empty name) span []
  rw [List.append_nil] at declared
  exact declared

/-- In a scope that declares nothing, the declarations stop at the first repeated name. -/
theorem declareAll_apply_of_firstRepeated {bindings : List (String × Value)} {name : String}
    (present : state.store.Has scope) (empty : ∀ name, state.store.binding? scope name = none)
    (unmarked : ∀ name, state.store.isConstant scope name = false)
    (repeated : FirstRepeated (bindings.map Prod.fst) name) (span : Span) :
    ∃ earlier, declareAll scope span bindings state =
      .error (.fault (.scope (.alreadyDeclared name) span)) (state.bindAll scope earlier) := by
  obtain ⟨before, after, split, distinct, again⟩ := repeated
  obtain ⟨first, others, rfl, rfl, fromHere⟩ := List.map_eq_append_iff.1 split
  obtain ⟨⟨key, value⟩, rest, rfl, rfl, -⟩ := List.map_eq_cons_iff.1 fromHere
  obtain ⟨⟨_, earlier⟩, member, rfl⟩ := List.mem_map.1 again
  refine ⟨first, ?_⟩
  rw [declareAll_append_apply distinct (fun name _ => empty name), declareAll_cons_apply,
    Store.declares, State.binding?_bindAll_of_mem present unmarked distinct member]
  rfl

end Evaluation

/-! ## Entering a function -/

/-- Nothing was printed since, and every scope that was there is as it was. -/
structure State.Preserves (before after : State) : Prop where
  output : after.output = before.output
  older : ∀ other, before.store.Has other →
    after.store.scope? other = before.store.scope? other

/-- The state in which the body of a function starts.  One scope was made, in the scope the function
was declared in; it declares the parameters, each as the argument in its place, and nothing else,
and has no constants. -/
structure State.Entered (before : State) (function : Function) (arguments : List Value)
    (scope : ScopeId) (after : State) : Prop where
  preserves : before.Preserves after
  fresh : ¬ before.store.Has scope
  made : ∀ other, after.store.Has other ↔ before.store.Has other ∨ other = scope
  parent : after.store.parent? scope = some function.closure
  depth : after.store.depth scope = before.store.depth function.closure + 1
  bindings : ∀ name binding, after.store.binding? scope name = some binding ↔
    binding.constant = false ∧
      ∃ index : Nat, function.parameters[index]? = some name ∧
        arguments[index]? = some binding.value
  unmarked : ∀ name, after.store.isConstant scope name = false

namespace State

variable {state : State}

theorem not_has_size (state : State) : ¬ state.store.Has ⟨state.size⟩ :=
  Nat.lt_irrefl _

theorem has_size_addEnclosed (state : State) (parent : ScopeId) :
    (state.addEnclosed parent).store.Has ⟨state.size⟩ :=
  Store.has_addEnclosed.2 (.inr rfl)

theorem scope?_size_addEnclosed (state : State) (parent : ScopeId) :
    (state.addEnclosed parent).store.scope? ⟨state.size⟩ =
      some ⟨some parent, state.store.depth parent + 1, .empty, .empty⟩ :=
  Store.scope?_addEnclosed_nextId state.store parent

theorem binding?_size_addEnclosed (state : State) (parent : ScopeId) (name : String) :
    (state.addEnclosed parent).store.binding? ⟨state.size⟩ name = none :=
  Store.binding?_addEnclosed_nextId state.store parent name

theorem isConstant_size_addEnclosed (state : State) (parent : ScopeId) (name : String) :
    (state.addEnclosed parent).store.isConstant ⟨state.size⟩ name = false :=
  Store.isConstant_addEnclosed_nextId state.store parent name

theorem preserves_bindAll_addEnclosed (state : State) (parent : ScopeId)
    (bindings : List (String × Value)) :
    state.Preserves ((state.addEnclosed parent).bindAll ⟨state.size⟩ bindings) := by
  refine ⟨output_bindAll .., fun other present => ?_⟩
  have elsewhere : other ≠ ⟨state.size⟩ := fun same => state.not_has_size (same ▸ present)
  rw [scope?_bindAll_of_ne bindings elsewhere]
  exact Store.scope?_addEnclosed_of_has present parent

theorem entered_bindAll_addEnclosed {function : Function} {arguments : List Value}
    (lengths : arguments.length = function.parameters.length)
    (distinct : function.parameters.Nodup) :
    state.Entered function arguments ⟨state.size⟩
      ((state.addEnclosed function.closure).bindAll ⟨state.size⟩
        (function.parameters.zip arguments)) := by
  have names : (function.parameters.zip arguments).map Prod.fst = function.parameters :=
    List.map_fst_zip (Nat.le_of_eq lengths.symm)
  have views := state.scope?_size_addEnclosed function.closure
  constructor
  · exact state.preserves_bindAll_addEnclosed ..
  · exact state.not_has_size
  · exact fun other => has_bindAll.trans Store.has_addEnclosed
  · rw [parent?_bindAll, Store.parent?, views]
    rfl
  · rw [depth_bindAll, Store.depth, views]
    rfl
  · intro name binding
    rw [binding?_bindAll_iff (state.has_size_addEnclosed _) (state.binding?_size_addEnclosed _)
      (state.isConstant_size_addEnclosed _) (names.symm ▸ distinct), List.mem_iff_getElem?]
    refine and_congr_right fun _ => exists_congr fun index => ?_
    rw [List.getElem?_zip_eq_some]
  · exact fun name => isConstant_bindAll _ |>.trans (state.isConstant_size_addEnclosed _ name)

end State

theorem Phrase.evaluateBlock_eq_foldlM (invoker : Invoker) (scope : ScopeId) (last : Value)
    (statements : List Phrase) :
    Phrase.evaluateBlock invoker scope last statements =
      statements.foldlM (fun _ statement => statement.evaluate invoker scope) last := by
  induction statements generalizing last with
  | nil => rfl
  | cons statement rest inductionHypothesis =>
      rw [Phrase.evaluateBlock, List.foldlM_cons]
      exact bind_congr inductionHypothesis

namespace Function

open Evaluation

/-- Make the scope of a call and declare the parameters in it. -/
def enter (function : Function) (arguments : List Value) (span : Span) : Evaluation ScopeId := do
  let scope ← addEnclosed function.closure
  declareAll scope span (function.parameters.zip arguments)
  return scope

/-- Calling a function with as many arguments as it has parameters is entering it and running its
body. -/
theorem run_eq_of_length_eq {function : Function} {arguments : List Value}
    (lengths : arguments.length = function.parameters.length) (invoker : Invoker) (span : Span) :
    function.run invoker arguments span =
      function.enter arguments span >>= fun scope =>
        Phrase.evaluateBlock (invoker.within function.bodyId.text) scope .null function.body := by
  rw [Function.run, if_neg fun differ => differ lengths, enter, bind_assoc]
  refine bind_congr fun scope => ?_
  rw [bind_assoc]
  exact bind_congr fun _ => (pure_bind ..).symm

section

variable {function : Function} {arguments : List Value} {span : Span} {state after : State}

theorem run_apply_of_enter_ok (lengths : arguments.length = function.parameters.length)
    {scope : ScopeId} (enters : function.enter arguments span state = .ok scope after)
    (invoker : Invoker) :
    function.run invoker arguments span state =
      Phrase.evaluateBlock (invoker.within function.bodyId.text) scope .null function.body
        after := by
  rw [run_eq_of_length_eq lengths, bind_apply, enters]

/-- Where a function cannot be entered, neither the invoker nor the body counts. -/
theorem run_apply_of_enter_error (lengths : arguments.length = function.parameters.length)
    {stop : Stop} (fails : function.enter arguments span state = .error stop after)
    (invoker : Invoker) (body : List Phrase) :
    { function with body := body }.run invoker arguments span state = .error stop after := by
  have failsWith : { function with body := body }.enter arguments span state =
      .error stop after := fails
  rw [run_eq_of_length_eq (by exact lengths), bind_apply, failsWith]

theorem enter_apply_of_nodup (lengths : arguments.length = function.parameters.length)
    (distinct : function.parameters.Nodup) (span : Span) :
    ∃ scope entered, state.Entered function arguments scope entered ∧
      function.enter arguments span state = .ok scope entered := by
  refine ⟨_, _, State.entered_bindAll_addEnclosed lengths distinct, ?_⟩
  have names : (function.parameters.zip arguments).map Prod.fst = function.parameters :=
    List.map_fst_zip (Nat.le_of_eq lengths.symm)
  have declared := declareAll_apply_of_nodup (state.binding?_size_addEnclosed function.closure)
    (names.symm ▸ distinct) span
  rw [enter, bind_apply, addEnclosed_apply]
  dsimp only
  rw [bind_apply, declared]
  rfl

theorem enter_apply_of_not_nodup (lengths : arguments.length = function.parameters.length)
    (repeated : ¬ function.parameters.Nodup) (span : Span) :
    ∃ name after, FirstRepeated function.parameters name ∧ state.Preserves after ∧
      function.enter arguments span state =
        .error (.fault (.scope (.alreadyDeclared name) span)) after := by
  obtain ⟨name, first⟩ := exists_firstRepeated repeated
  have names : (function.parameters.zip arguments).map Prod.fst = function.parameters :=
    List.map_fst_zip (Nat.le_of_eq lengths.symm)
  obtain ⟨earlier, fails⟩ := declareAll_apply_of_firstRepeated
    (state.has_size_addEnclosed function.closure)
    (state.binding?_size_addEnclosed function.closure)
    (state.isConstant_size_addEnclosed function.closure) (names.symm ▸ first) span
  refine ⟨name, _, first, state.preserves_bindAll_addEnclosed function.closure earlier, ?_⟩
  rw [enter, bind_apply, addEnclosed_apply]
  dsimp only
  rw [bind_apply, fails]

end

/-- A call enters its function or fails before anything is done.  A wrong number of arguments is
reported first, then the first parameter that is there twice; neither the invoker nor the body has
a say in that, and all that was there before stays as it was.  Otherwise the statements of the body
are evaluated one after the other in the new scope, and the last one gives the value. -/
theorem run_enters_or_fails (invoker : Invoker) (function : Function) (arguments : List Value)
    (span : Span) (state : State) :
    (arguments.length ≠ function.parameters.length →
      ∀ (other : Invoker) (body : List Phrase),
        { function with body := body }.run other arguments span state =
          .error (.fault (.arityMismatch function.name function.parameters.length
            arguments.length span)) state) ∧
    (arguments.length = function.parameters.length → ¬ function.parameters.Nodup →
      ∃ name after, FirstRepeated function.parameters name ∧ state.Preserves after ∧
        ∀ (other : Invoker) (body : List Phrase),
          { function with body := body }.run other arguments span state =
            .error (.fault (.scope (.alreadyDeclared name) span)) after) ∧
    (arguments.length = function.parameters.length → function.parameters.Nodup →
      ∃ scope entered, state.Entered function arguments scope entered ∧
        function.run invoker arguments span state =
          function.body.foldlM
            (fun _ statement => statement.evaluate (invoker.within function.bodyId.text) scope)
            Value.null entered) := by
  refine ⟨fun differ other body => ?_, fun lengths repeated => ?_, fun lengths distinct => ?_⟩
  · rw [Function.run, if_pos differ, fail_apply]
  · obtain ⟨name, after, first, preserves, fails⟩ := enter_apply_of_not_nodup lengths repeated span
    exact ⟨name, after, first, preserves, run_apply_of_enter_error lengths fails⟩
  · obtain ⟨scope, entered, isEntered, enters⟩ := enter_apply_of_nodup lengths distinct span
    refine ⟨scope, entered, isEntered, ?_⟩
    rw [run_apply_of_enter_ok lengths enters, Phrase.evaluateBlock_eq_foldlM]

/-- Three arguments for a function with one parameter, for one with a parameter that is there twice,
and for one with three. -/
theorem three_arguments_enter_or_fail :
    let invoker := Invoker.upTo Host.standard 0
    let state := State.initial.2
    let arguments : List Value := [.null, .boolean true, .null]
    let function : List String → Function := fun parameters =>
      ⟨"f", parameters, [.identifier "x" ⟨9, 10⟩], ⟨0, ⟨0, 12⟩⟩, State.initial.1⟩
    ((function ["x"]).run invoker arguments ⟨0, 4⟩ state =
        .error (.fault (.arityMismatch "f" 1 3 ⟨0, 4⟩)) state) ∧
      (∃ name after, FirstRepeated ["x", "y", "x"] name ∧ state.Preserves after ∧
        (function ["x", "y", "x"]).run invoker arguments ⟨0, 4⟩ state =
          .error (.fault (.scope (.alreadyDeclared name) ⟨0, 4⟩)) after) ∧
      ∃ scope entered, state.Entered (function ["x", "y", "z"]) arguments scope entered ∧
        (function ["x", "y", "z"]).run invoker arguments ⟨0, 4⟩ state =
          (function ["x", "y", "z"]).body.foldlM
            (fun _ statement => statement.evaluate (invoker.within 0) scope) Value.null entered := by
  intro invoker state arguments function
  refine ⟨?_, ?_, ?_⟩
  · exact (run_enters_or_fails invoker (function ["x"]) arguments ⟨0, 4⟩ state).1 (by decide)
      invoker (function []).body
  · obtain ⟨name, after, first, keeps, fails⟩ :=
      (run_enters_or_fails invoker (function ["x", "y", "x"]) arguments ⟨0, 4⟩ state).2.1 rfl
        (by decide)
    exact ⟨name, after, first, keeps, fails invoker (function []).body⟩
  · exact (run_enters_or_fails invoker (function ["x", "y", "z"]) arguments ⟨0, 4⟩ state).2.2 rfl
      (by decide)

end Function

end NanoScript
