import NanoScript.Proofs.Evaluation.Following

/-!
Contract: names that are in force in the text stand for something when the text runs.

Owns:
- functions whose free names stand for something in the scope they see, and stores that hold only
  such functions;
- the regime of evaluations that keep to such stores and never fail on a name that stands for
  nothing;
- the theorem for phrases whose free names stand for something.

Stores only grow, so that a function stays closed wherever it is kept and whenever it is called.
-/

namespace NanoScript

open Relation

/-! ## Closed functions -/

/-- Every free name of statements stands for something in a scope, or is one of some given names. -/
def Store.Covers (store : Store) (scope : ScopeId) (given : List String) (body : List Phrase) :
    Prop :=
  ∀ name ∈ Phrase.blockFreeNames body, name ∉ given → store.Resolves scope name

/-- The scope that a function sees is there, and every free name of the body stands for something in
it or is a parameter. -/
structure Function.ClosedIn (store : Store) (function : Function) : Prop where
  present : store.Has function.closure
  resolves : store.Covers function.closure function.parameters function.body

/-- All functions in a value are closed. -/
def Value.ClosedIn (store : Store) (value : Value) : Prop :=
  ∀ function ∈ value.functions, function.ClosedIn store

/-- The parents of scopes are there, and all functions are closed. -/
structure Store.Sound (store : Store) : Prop where
  parents : store.HasParents
  functions : ∀ function, store.Holds function → function.ClosedIn store

section

variable {store later : Store}

theorem Store.Covers.mono {scope : ScopeId} {given : List String} {body : List Phrase}
    (covers : store.Covers scope given body) (present : store.Has scope)
    (grows : store.Extends later) : later.Covers scope given body :=
  fun name free other => grows.resolves present (covers name free other)

theorem Function.ClosedIn.mono {function : Function} (closed : function.ClosedIn store)
    (grows : store.Extends later) : function.ClosedIn later :=
  ⟨grows.has closed.present, closed.resolves.mono closed.present grows⟩

theorem Value.ClosedIn.mono {value : Value} (closed : value.ClosedIn store)
    (grows : store.Extends later) : value.ClosedIn later :=
  fun function member => (closed function member).mono grows

theorem Store.Sound.bind (sound : store.Sound) {owner : ScopeId} {name : String}
    {binding : Binding} (closed : binding.value.ClosedIn (store.bind owner name binding)) :
    (store.bind owner name binding).Sound := by
  refine ⟨sound.parents.bind, fun function held => ?_⟩
  rcases held.of_bind with inValue | older
  · exact closed function inValue
  · exact (sound.functions function older).mono (Store.extends_bind sound.parents ..)

theorem Store.Sound.addEnclosed (sound : store.Sound) {parent : ScopeId}
    (present : store.Has parent) : (store.addEnclosed parent).2.Sound := by
  refine ⟨sound.parents.addEnclosed present, fun function held => ?_⟩
  exact (sound.functions function (held.of_push rfl)).mono
    (Store.extends_addEnclosed sound.parents parent)

theorem Store.Sound.addText (sound : store.Sound) : store.addText.2.Sound :=
  ⟨sound.parents, fun function held =>
    (sound.functions function held).mono (Store.extends_addText sound.parents)⟩

end

/-! ## The regime of names in force -/

/-- A failure on a name that stands for nothing. -/
def Stop.Unresolved (stop : Stop) : Prop :=
  ∃ name span, stop = .fault (.scope (.unresolved name) span)

/-- The store has grown and is sound if it was. -/
structure State.KeepsSound (before after : State) : Prop where
  grows : before.store.Extends after.store
  sound : before.store.Sound → after.store.Sound

/-- A phrase that fails on a name that stands for nothing uses the name. -/
theorem Phrase.Raises.mem_freeNames {phrase : Phrase} {name : String} {span : Span}
    (raises : phrase.Raises (.scope (.unresolved name) span)) : name ∈ phrase.freeNames := by
  cases raises with
  | unresolved => exact .head _
  | shorthandUnresolved member => exact Entry.mem_allFreeNames_of_shorthand member
  | targetUnresolved named =>
      exact List.mem_append_left _ (mem_freeNames_of_name? named)

theorem State.keepsSound_bind {state : State} (sound : state.store.Sound) {owner : ScopeId}
    {name : String} {binding : Binding}
    (closed : binding.value.ClosedIn (state.store.bind owner name binding)) :
    state.KeepsSound (state.bind owner name binding) :=
  ⟨Store.extends_bind sound.parents .., fun _ => sound.bind closed⟩

/-- What is closed may be bound anywhere. -/
theorem State.keepsSound_bind_of_closedIn {state : State} (sound : state.store.Sound)
    {owner : ScopeId} {name : String} {binding : Binding}
    (closed : binding.value.ClosedIn state.store) :
    state.KeepsSound (state.bind owner name binding) :=
  keepsSound_bind sound (closed.mono (Store.extends_bind sound.parents ..))

/-- A declared function may use its own name, which stands for it as soon as it is bound. -/
theorem State.closedIn_declared {state : State} (sound : state.store.Sound) {scope : ScopeId}
    {name : String} {parameters : List String} {body : List Phrase} {bodyId : BodyId} {span : Span}
    {binding : Binding} (present : state.store.Has scope)
    (covers : state.store.Covers scope [] [.functionDeclaration name parameters body span]) :
    (Value.function ⟨name, parameters, body, bodyId, scope⟩).ClosedIn
      (state.store.bind scope name binding) := by
  intro function member
  rw [List.mem_singleton.1 member]
  refine ⟨Store.has_bind.2 present, fun used free noParameter => ?_⟩
  by_cases itself : used = name
  · rw [itself]
    exact Store.resolves_of_declares (Store.declares_bind_self present)
  · refine (Store.extends_bind sound.parents ..).resolves present
      (covers used ?_ List.not_mem_nil)
    rw [Phrase.blockFreeNames_singleton]
    refine List.mem_filter.2 ⟨free, decide_eq_true fun named => ?_⟩
    rcases List.mem_cons.1 named with same | isParameter
    · exact itself same
    · exact noParameter isParameter

/-- What a statement declares stands for something behind it. -/
theorem Store.Covers.next {state : State} {scope : ScopeId} {statement : Phrase}
    {rest : List Phrase} (covers : state.store.Covers scope [] (statement :: rest))
    (present : state.store.Has scope) (done : state.Done scope statement) :
    state.store.Covers scope [] rest := by
  intro name free other
  rcases Phrase.mem_blockFreeNames_cons free with declared | inWhole
  · exact Store.resolves_of_declares (done present name declared)
  · exact covers name inWhole other

/-- The evaluations of phrases whose free names stand for something. -/
def Regime.resolution : Regime where
  Admits state := state.store.Sound
  Knows state value := value.ClosedIn state.store
  Fits state scope phrases := state.store.Has scope ∧ state.store.Covers scope [] phrases
  Opens state function scope :=
    state.store.Has scope ∧ state.store.Covers scope function.parameters function.body
  Calls _ _ _ := True
  Uses _ := True
  Allows stop := ¬ stop.Unresolved
  Change := State.KeepsSound
  admits change sound := change.sound sound
  knows change closed := closed.mono change.grows
  fits change fits := ⟨change.grows.has fits.1, fits.2.mono fits.1 change.grows⟩
  opens change opens := ⟨change.grows.has opens.1, opens.2.mono opens.1 change.grows⟩
  within _ uses := uses
  plain isPlain := Value.forall_functions_of_isPlain isPlain
  empty := nofun
  insert key object value := Value.forall_functions_insert key object value
  property object found := Value.forall_functions_property object found
  seen fits := ⟨fits.1, nofun⟩
  part fits noProgram member := ⟨fits.1, fun name free other => by
    rw [Phrase.blockFreeNames_singleton] at free
    refine fits.2 name ?_ other
    rw [Phrase.blockFreeNames_singleton]
    exact Phrase.mem_freeNames_of_evaluated noProgram member free⟩
  block fits := ⟨fits.1, fun name free other => by
    refine fits.2 name ?_ other
    rw [Phrase.blockFreeNames_singleton]
    exact free⟩
  head fits := ⟨fits.1, fun name free other => by
    rw [Phrase.blockFreeNames_singleton] at free
    exact fits.2 name (List.mem_append_left _ free) other⟩
  next fits done := ⟨fits.1, fits.2.next fits.1 done⟩
  read sound _ found := fun function member =>
    sound.functions function (Store.holds_of_lookup found member)
  declareVariable sound _ _ known := State.keepsSound_bind_of_closedIn sound known
  declareFunction _ sound fits _ :=
    have closed := State.closedIn_declared sound fits.1 fits.2
    ⟨State.keepsSound_bind sound closed, closed⟩
  assign sound _ _ _ known := State.keepsSound_bind_of_closedIn sound known
  enclose {state function} sound known := by
    obtain ⟨present, covers⟩ := known function (List.mem_singleton.2 rfl)
    refine ⟨⟨Store.extends_addEnclosed sound.parents _, fun _ => sound.addEnclosed present⟩,
      Store.has_addEnclosed_nextId, fun name free noParameter => ?_⟩
    exact Store.resolves_addEnclosed sound.parents present (covers name free noParameter)
  parameter sound _ _ known := State.keepsSound_bind_of_closedIn sound known
  body {state function scope} opens present declared := ⟨present, fun name free _ => by
    by_cases isParameter : name ∈ function.parameters
    · exact Store.resolves_of_declares (declared name isParameter)
    · exact opens.2 name free isParameter⟩
  call _ _ _ _ _ := trivial
  tooDeep := nofun
  raises _ fits fails := by
    rintro ⟨name, span, same⟩
    obtain rfl := Stop.fault.inj same
    obtain ⟨missing⟩ | _ | _ := fails.refuses _ _ rfl
    refine missing (fits.2 name ?_ List.not_mem_nil)
    rw [Phrase.blockFreeNames_singleton]
    exact fails.raises.mem_freeNames
  arity _ _ := nofun
  repeated _ _ := nofun

/-! ## Evaluations -/

/-- Sequences of changes let a store grow and keep it sound. -/
theorem State.keepsSound_of_grown {before after : State}
    (grown : Regime.resolution.Grown before after) : before.KeepsSound after := by
  induction grown with
  | refl => exact ⟨.refl _, id⟩
  | tail _ change inductionHypothesis =>
      exact ⟨inductionHypothesis.grows.trans change.grows,
        fun sound => change.sound (inductionHypothesis.sound sound)⟩

theorem Regime.resolution_trusts (depth : Nat) :
    Regime.resolution.Trusts (Invoker.upTo Host.standard depth) := by
  have print {state : State} (line : String) : state.KeepsSound (state.print line) :=
    ⟨.refl _, id⟩
  exact Covers.trusts (Regime.covers_standard print) (fun _ => trivial) depth

/-- A phrase whose free names stand for something never fails on a name that stands for nothing, and
leaves a store in which all functions are closed. -/
theorem Phrase.evaluate_resolved (depth text : Nat) (phrase : Phrase) {scope : ScopeId}
    {state : State} (sound : state.store.Sound) (present : state.store.Has scope)
    (free : ∀ name ∈ phrase.freeNames, state.store.Resolves scope name) :
    let outcome :=
      (phrase.evaluate ((Invoker.upTo Host.standard depth).within text) scope).outcome state
    (∀ name span, outcome.1 ≠ .error (.fault (.scope (.unresolved name) span))) ∧
      state.KeepsSound outcome.2 := by
  have covers : state.store.Covers scope [] [phrase] := by
    intro name inPhrase _
    rw [blockFreeNames_singleton] at inPhrase
    exact free name inPhrase
  have ends := phrase.evaluate_follows ((Regime.resolution_trusts depth).within text)
    ⟨present, covers⟩ state .refl sound
  refine ⟨fun name span fails => ?_, State.keepsSound_of_grown ends.grown⟩
  rw [Evaluation.outcome_apply] at fails
  cases result : phrase.evaluate ((Invoker.upTo Host.standard depth).within text) scope state with
  | ok value after =>
      rw [result] at fails
      cases fails
  | error stop after =>
      rw [result] at fails ends
      cases stop with
      | tooDeep => cases fails
      | fault fault =>
          cases fails
          exact ends.2 ⟨name, span, rfl⟩

end NanoScript
