import NanoScript.Proofs.Evaluation.InPlace
import NanoScript.Proofs.Phrase.Desugaring

/-!
Contract: evaluation does not tell a shorthand entry from the entry that it stands for.

Owns:
- functions, values, scopes and states with the bodies of functions desugared;
- the likeness between the runs of a phrase and of its desugared one;
- the theorem that desugaring a phrase and the state it starts in desugars its outcome and the
  state it ends in, and does nothing else.

A key alone and the variable of that name are looked up in the same scope, at the same moment and
for the same place.  The rest is the general theorem on two runs that proceed in step.
-/

namespace NanoScript

/-! ## States without shorthand -/

/-- A function with its body desugared. -/
def Function.desugared (function : Function) : Function :=
  { function with body := Phrase.eachDesugared function.body }

/-- A value with the bodies of the functions in it desugared. -/
def Value.desugared : Value → Value :=
  Value.mapFunctions Function.desugared

/-- A state with the bodies of all functions desugared that are bound in its scopes. -/
def State.desugared : State → State :=
  State.mapFunctions Function.desugared

/-- An outcome with its value desugared; a failure stays as it is. -/
def Failure.desugaredOutcome : Except Failure Value → Except Failure Value :=
  Except.map Value.desugared

/-! ## Runs without shorthand -/

/-- The runs of phrases and of their desugared ones, from a state and from the desugared state. -/
def Likeness.ofDesugaring (state : State) : Likeness :=
  .inPlace (.inOneText Phrase.Desugars Eq Phrase.Desugars.layer) state state.store.texts

section

variable {state : State}

theorem Likeness.ofDesugaring_scopes {left right : ScopeId} :
    (ofDesugaring state).Scopes left right ↔ left = right :=
  inPlace_scopes

/-- Functions correspond just if the second is the first with its body desugared. -/
theorem Likeness.ofDesugaring_functions {left right : Function} :
    (ofDesugaring state).Functions left right ↔ right = left.desugared := by
  constructor
  · intro functions
    obtain ⟨name, parameters, body, ⟨text, place⟩, closure⟩ := right
    cases functions.name
    cases functions.parameters
    cases ofDesugaring_scopes.1 functions.closure
    cases functions.place.1
    cases functions.place.2
    cases Phrase.forall₂_desugars.1 (functions.body.imp fun _ _ both => both.2)
    rfl
  · rintro rfl
    exact ⟨rfl, rfl, (Phrase.forall₂_desugars.2 rfl).imp fun _ _ same => ⟨rfl, same⟩, ⟨rfl, rfl⟩,
      ofDesugaring_scopes.2 rfl⟩

theorem Likeness.ofDesugaring_states : (ofDesugaring state).States state state.desugared := by
  have scopes : state.desugared.store.scopes =
      state.store.scopes.map (Scope.mapFunctions Function.desugared) := rfl
  exact inPlace_states_of_scopes scopes rfl fun _ _ => ofDesugaring_functions.2 rfl

/-! ## What corresponds is desugared -/

theorem Likeness.Values.eq_desugared {left right : Value}
    (values : (ofDesugaring state).Values left right) : right = left.desugared := by
  have same : left.mapFunctions Function.desugared = right.mapFunctions id :=
    values.mapFunctions_eq fun functions => (ofDesugaring_functions.1 functions).symm
  rw [Value.mapFunctions_id] at same
  exact same.symm

theorem Likeness.States.eq_desugared {left right : State}
    (states : (ofDesugaring state).States left right) : right = left.desugared := by
  have same : left.mapFunctions Function.desugared = right.mapFunctions id :=
    inPlace_mapFunctions_eq
      (fun functions => (ofDesugaring_functions.1 functions).symm) states
  rw [State.mapFunctions_id] at same
  exact same.symm

theorem Likeness.Runs.eq_desugared {left right : Except Failure Value × State}
    (runs : (ofDesugaring state).Runs left right) :
    right = (Failure.desugaredOutcome left.1, left.2.desugared) := by
  cases runs with
  | value values states => rw [values.eq_desugared, states.eq_desugared]; rfl
  | fault faults states =>
      -- Desugaring moves nothing, so that both faults are at one place.
      rw [faults.eq_of_span faults.span.symm, states.eq_desugared]
      rfl
  | tooDeep states => rw [states.eq_desugared]; rfl

end

/-- Evaluating a desugared phrase in a desugared state gives the desugared value of the phrase, or
its failure, and leaves the desugared state, if the functions of the host do not tell functions from
desugared ones. -/
theorem Phrase.evaluate_desugared {host : Host} {state : State}
    (respects : host.Respects (Likeness.ofDesugaring state)) (depth text : Nat) (scope : ScopeId)
    (phrase : Phrase) :
    let invoker := (Invoker.upTo host depth).within text
    (phrase.desugared.evaluate invoker scope).outcome state.desugared =
      let (outcome, after) := (phrase.evaluate invoker scope).outcome state
      (Failure.desugaredOutcome outcome, after.desugared) := by
  intro invoker
  have similar : (Likeness.ofDesugaring state).Similar (Likeness.ofDesugaring state).Values
      (phrase.evaluate invoker scope) (phrase.desugared.evaluate invoker scope) :=
    Phrase.evaluate_similar ((respects.trusts depth).within text text)
      (Likeness.ofDesugaring_scopes.2 rfl) phrase ⟨rfl, rfl⟩
  exact (similar.runs Likeness.ofDesugaring_states).eq_desugared

/-- A function that makes an object of its argument, by a key alone and by a key with a value. -/
theorem object_of_argument_evaluates_alike :
    let declaration entry : Phrase :=
      .functionDeclaration "f" ["a"] [.objectLiteral [entry] ⟨10, 13⟩] ⟨0, 15⟩
    let call : Phrase :=
      .call (.identifier "f" ⟨16, 17⟩) [.identifier "true" ⟨18, 22⟩] ⟨16, 23⟩
    let short : Phrase := .program [declaration (.shorthand "a" ⟨11, 12⟩), call] ⟨0, 23⟩
    let long : Phrase :=
      .program [declaration (.keyed "a" (.identifier "a" ⟨11, 12⟩) ⟨11, 12⟩), call] ⟨0, 23⟩
    let invoker := (Invoker.upTo Host.standard 1).within 0
    let shortRun := (short.evaluate invoker State.initial.1).outcome State.initial.2
    let longRun := (long.evaluate invoker State.initial.1).outcome State.initial.2.desugared
    longRun = (Failure.desugaredOutcome shortRun.1, shortRun.2.desugared) ∧
      shortRun.1.map Value.text = .ok "\x7b a: true \x7d" := by
  intro declaration call short long invoker shortRun longRun
  refine ⟨?_, by decide +kernel⟩
  exact Phrase.evaluate_desugared (Host.standard_respects _) 1 0 State.initial.1 short

end NanoScript
