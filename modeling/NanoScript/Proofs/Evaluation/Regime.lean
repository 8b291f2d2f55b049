import Mathlib.Logic.Relation
import NanoScript.Host.Standard
import NanoScript.Proofs.Evaluation.Calling
import NanoScript.Proofs.Phrase.FreeNames
import NanoScript.Proofs.Phrase.Occurrence
import NanoScript.Proofs.Scope.Resolution
import NanoScript.Proofs.Value.Functions

/-!
Contract: what an evaluation can do to a state, one change at a time.

Owns:
- the faults of a phrase, and what a store has to be like for a name to be refused;
- regimes: the states that may arise, what each of them knows, what may be evaluated in it, the
  changes that lead from one to the next, and the failures that may come of it;
- computations that follow a regime: they make such changes only, give values that the state they
  leave knows, and fail in such ways only.

A regime is asked once for each thing that the rules of evaluation do.  What is evaluated with what
is left to it, so that a regime may look at places, at names in force, at the scopes that are seen
or at the functions that were made.
-/

namespace NanoScript

open Relation

/-! ## Faults -/

/-- The faults that evaluating a phrase may end in, those of its parts left aside. -/
inductive Phrase.Raises : Phrase → Fault → Prop
  | declared {name : String} {value : Option Phrase} {constant : Bool} {span : Span} :
      Raises (.variableDeclaration name value constant span) (.scope (.alreadyDeclared name) span)
  | functionDeclared {name : String} {parameters : List String} {body : List Phrase}
      {span : Span} :
      Raises (.functionDeclaration name parameters body span)
        (.scope (.alreadyDeclared name) span)
  | unresolved {name : String} {span : Span} :
      Raises (.identifier name span) (.scope (.unresolved name) span)
  | shorthandUnresolved {key : String} {span whole : Span} {entries : List Entry}
      (member : .shorthand key span ∈ entries) :
      Raises (.objectLiteral entries whole) (.scope (.unresolved key) span)
  | division {left right : Phrase} {operator : Operator} {span : Span}
      (divides : operator = .divide ∨ operator = .modulo) :
      Raises (.binary left operator right span) (.divisionByZero span)
  | target {target value : Phrase} {span : Span} (noName : target.name? = none) :
      Raises (.assignment target value span) (.invalidAssignmentTarget target.span)
  | targetUnresolved {target value : Phrase} {span : Span} {name : String}
      (named : target.name? = some name) :
      Raises (.assignment target value span) (.scope (.unresolved name) target.span)
  | targetConstant {target value : Phrase} {span : Span} {name : String}
      (named : target.name? = some name) :
      Raises (.assignment target value span) (.scope (.constantReassigned name) target.span)
  | arity {callee : Phrase} {arguments : List Phrase} {span : Span} {name : String}
      {expected found : Nat} :
      Raises (.call callee arguments span) (.arityMismatch name expected found span)
  | parameterRepeated {callee : Phrase} {arguments : List Phrase} {span : Span} {name : String} :
      Raises (.call callee arguments span) (.scope (.alreadyDeclared name) span)
  | callee {callee : Phrase} {arguments : List Phrase} {span : Span} {kind : Value.Kind} :
      Raises (.call callee arguments span) (.notAFunction kind callee.span)
  | object {object property : Phrase} {computed : Bool} {span : Span} {kind : Value.Kind} :
      Raises (.member object property computed span) (.notAnObject kind object.span)
  | computedKey {object property : Phrase} {span : Span} {kind : Value.Kind} :
      Raises (.member object property true span) (.invalidPropertyKey (.value kind) property.span)
  | key {object property : Phrase} {span : Span} (noName : property.name? = none) :
      Raises (.member object property false span)
        (.invalidPropertyKey (.phrase property.kind) property.span)

/-- What a store is like when the use of a name from a scope fails. -/
inductive Store.Refuses (store : Store) (scope : ScopeId) : ScopeError → Prop
  | unresolved {name : String} (missing : ¬ store.Resolves scope name) :
      Refuses store scope (.unresolved name)
  | alreadyDeclared {name : String} (declared : store.declares scope name = true) :
      Refuses store scope (.alreadyDeclared name)
  | constantReassigned {name : String} (resolves : store.Resolves scope name) :
      Refuses store scope (.constantReassigned name)

/-- A phrase that is evaluated in a scope ends in a fault of its own.  If the fault is about a name,
then the store is such that the name is refused.  A call fails by itself only if what is called is
no function; where it fails otherwise, the function does. -/
structure Phrase.FailsIn (store : Store) (scope : ScopeId) (phrase : Phrase) (fault : Fault) :
    Prop where
  raises : phrase.Raises fault
  refuses : ∀ error span, fault = .scope error span → store.Refuses scope error
  called : phrase.kind = .call → ∃ kind span, fault = .notAFunction kind span

theorem Store.refuses_of_lookup {store : Store} {scope : ScopeId} {name : String}
    {error : ScopeError} (fails : store.lookup scope name = .error error) :
    error = .unresolved name ∧ store.Refuses scope (.unresolved name) := by
  refine ⟨lookup_eq_error fails, .unresolved fun resolves => ?_⟩
  obtain ⟨value, found⟩ := resolves.exists_lookup
  cases found.symm.trans fails

theorem Store.refuses_of_assignable {store : Store} {scope : ScopeId} {name : String}
    {error : ScopeError} (fails : store.assignable scope name = .error error) :
    (error = .unresolved name ∨ error = .constantReassigned name) ∧
      store.Refuses scope error := by
  by_cases resolves : store.Resolves scope name
  · obtain rfl := resolves.eq_constantReassigned fails
    exact ⟨.inr rfl, .constantReassigned resolves⟩
  · rcases assignable_eq_error fails with rfl | rfl
    · exact ⟨.inl rfl, .unresolved resolves⟩
    · unfold assignable at fails
      cases resolved : store.resolve scope name with
      | error other =>
          rw [resolved] at fails
          cases fails
          cases resolve_eq_error resolved
      | ok owner => exact absurd ⟨owner, resolve_eq_ok resolved⟩ resolves

/-! ## Regimes -/

/-- A scope that is there declares the name that a phrase declares, if it declares one. -/
def State.Done (state : State) (scope : ScopeId) (phrase : Phrase) : Prop :=
  state.store.Has scope → ∀ name ∈ phrase.declaredNames,
    state.store.declares scope name = true

/-- What the evaluations that are looked at have to do with.

A state admits or does not, knows values, and lets statements be evaluated in a scope one after the
other; if there are none, the scope is one that may be looked into.  It may have opened a scope for
a function and be about to make a call of a function from some place.

The laws come in the order of the rules of evaluation: what changes leave true, how values are made,
what follows about the parts of a phrase, the changes that the rules make, and where they fail. -/
structure Regime where
  Admits : State → Prop
  Knows : State → Value → Prop
  Fits : State → ScopeId → List Phrase → Prop
  Opens : State → Function → ScopeId → Prop
  Calls : State → Function → Span → Prop
  Uses : Invoker → Prop
  Allows : Stop → Prop
  Change : State → State → Prop
  admits : ∀ {before after}, Change before after → Admits before → Admits after
  knows : ∀ {before after value}, Change before after → Knows before value → Knows after value
  fits : ∀ {before after scope phrases}, Change before after → Fits before scope phrases →
    Fits after scope phrases
  opens : ∀ {before after function scope}, Change before after → Opens before function scope →
    Opens after function scope
  within : ∀ {invoker} text, Uses invoker → Uses (invoker.within text)
  plain : ∀ {state value}, value.IsPlain → Knows state value
  empty : ∀ {state}, Knows state (.object .empty)
  insert : ∀ {state properties value} key, Knows state (.object properties) →
    Knows state value → Knows state (.object (properties.insert key value))
  property : ∀ {state properties key value}, Knows state (.object properties) →
    properties.find? key = some value → Knows state value
  seen : ∀ {state scope phrases}, Fits state scope phrases → Fits state scope []
  part : ∀ {state scope whole phrase}, Fits state scope [whole] → whole.kind ≠ .program →
    phrase ∈ whole.evaluated → Fits state scope [phrase]
  block : ∀ {state scope body span}, Fits state scope [.program body span] →
    Fits state scope body
  head : ∀ {state scope statement rest}, Fits state scope (statement :: rest) →
    Fits state scope [statement]
  next : ∀ {state scope statement rest}, Fits state scope (statement :: rest) →
    state.Done scope statement → Fits state scope rest
  read : ∀ {state scope name value}, Admits state → Fits state scope [] →
    state.store.lookup scope name = .ok value → Knows state value
  declareVariable : ∀ {state scope name initial constant span value}, Admits state →
    Fits state scope [.variableDeclaration name initial constant span] →
      state.store.declares scope name = false → Knows state value →
        Change state (state.bind scope name ⟨value, constant⟩)
  declareFunction : ∀ {state scope name parameters body span} text, Admits state →
    Fits state scope [.functionDeclaration name parameters body span] →
      state.store.declares scope name = false →
        let function := ⟨name, parameters, body, ⟨text, span⟩, scope⟩
        Change state (state.bind scope name ⟨.function function, true⟩) ∧
          Knows (state.bind scope name ⟨.function function, true⟩) (.function function)
  assign : ∀ {state scope owner target written span name value}, Admits state →
    Fits state scope [.assignment target written span] → target.name? = some name →
      state.store.assignable scope name = .ok owner → Knows state value →
        Change state (state.bind owner name ⟨value, false⟩)
  enclose : ∀ {state function}, Admits state → Knows state (.function function) →
    Change state (state.addEnclosed function.closure) ∧
      Opens (state.addEnclosed function.closure) function ⟨state.size⟩
  parameter : ∀ {state function scope name value}, Admits state → Opens state function scope →
    state.store.declares scope name = false → Knows state value →
      Change state (state.bind scope name ⟨value, false⟩)
  body : ∀ {state function scope}, Opens state function scope → state.store.Has scope →
    (∀ name ∈ function.parameters, state.store.declares scope name = true) →
      Fits state scope function.body
  call : ∀ {before after invoker scope callee arguments span function}, Admits before →
    Uses invoker → Fits before scope [.call callee arguments span] →
      callee.evaluate invoker scope before = .ok (.function function) after →
        Knows after (.function function) → Calls after function span
  tooDeep : Allows .tooDeep
  raises : ∀ {state scope phrase fault}, Admits state → Fits state scope [phrase] →
    phrase.FailsIn state.store scope fault → Allows (.fault fault)
  arity : ∀ {state function span} found, Calls state function span →
    Allows (.fault (.arityMismatch function.name function.parameters.length found span))
  repeated : ∀ {state function span name}, Calls state function span →
    2 ≤ function.parameters.count name → Allows (.fault (.scope (.alreadyDeclared name) span))

namespace Regime

variable {α β : Type} {regime : Regime} {world before later state : State}

/-- The same regime, except that calls may come from anywhere and that every failure is allowed. -/
def unblamed (regime : Regime) : Regime :=
  { regime with
    Calls := fun _ _ _ => True
    Allows := fun _ => True
    call := fun _ _ _ _ _ => trivial
    tooDeep := trivial
    raises := fun _ _ _ => trivial
    arity := fun _ _ => trivial
    repeated := fun _ _ => trivial }

/-- A state has come from another one by changes. -/
abbrev Grown (regime : Regime) : State → State → Prop :=
  ReflTransGen regime.Change

theorem Grown.admits (grown : regime.Grown before later) (admits : regime.Admits before) :
    regime.Admits later := by
  induction grown with
  | refl => exact admits
  | tail _ change inductionHypothesis => exact regime.admits change inductionHypothesis

theorem Grown.knows (grown : regime.Grown before later) {value : Value}
    (known : regime.Knows before value) : regime.Knows later value := by
  induction grown with
  | refl => exact known
  | tail _ change inductionHypothesis => exact regime.knows change inductionHypothesis

theorem Grown.fits (grown : regime.Grown before later) {scope : ScopeId} {phrases : List Phrase}
    (fits : regime.Fits before scope phrases) : regime.Fits later scope phrases := by
  induction grown with
  | refl => exact fits
  | tail _ change inductionHypothesis => exact regime.fits change inductionHypothesis

/-! ## Computations -/

/-- An outcome that is reached by changes: a value of which `post` holds in the state it leaves, or
a failure that is allowed. -/
def Ends (regime : Regime) (post : State → α → Prop) (state : State) :
    EStateM.Result Stop State α → Prop
  | .ok value after => regime.Grown state after ∧ post after value
  | .error stop after => regime.Grown state after ∧ regime.Allows stop

/-- From every admissible state that has come from a given one, a computation makes changes of the
regime only and fails in allowed ways only. -/
def Follows (regime : Regime) (world : State) (post : State → α → Prop)
    (computation : Evaluation α) : Prop :=
  ∀ state, regime.Grown world state → regime.Admits state →
    regime.Ends post state (computation state)

/-- An outcome that is reached from a later state is reached from the earlier one. -/
theorem Ends.after {post : State → α → Prop} {outcome : EStateM.Result Stop State α}
    (ends : regime.Ends post later outcome) (grown : regime.Grown state later) :
    regime.Ends post state outcome := by
  cases outcome with
  | ok value after => exact ⟨grown.trans ends.1, ends.2⟩
  | error stop after => exact ⟨grown.trans ends.1, ends.2⟩

/-- Whether a computation gives a value or fails, what it left was reached by changes. -/
theorem Ends.grown {post : State → α → Prop} {computation : Evaluation α}
    (ends : regime.Ends post state (computation state)) :
    regime.Grown state (computation.outcome state).2 := by
  rw [Evaluation.outcome_apply]
  cases result : computation state with
  | ok value after =>
      rw [result] at ends
      exact ends.1
  | error stop after =>
      rw [result] at ends
      exact ends.1

/-- What a computation gives is as its outcome says. -/
theorem Ends.gives {post : State → α → Prop} {computation : Evaluation α}
    (ends : regime.Ends post state (computation state)) {value : α}
    (isOk : (computation.outcome state).1 = .ok value) :
    post (computation.outcome state).2 value := by
  rw [Evaluation.outcome_apply] at isOk ⊢
  cases result : computation state with
  | ok found after =>
      rw [result] at isOk ends
      cases isOk
      exact ends.2
  | error stop after =>
      rw [result] at isOk
      cases isOk

theorem follows_pure {post : State → α → Prop} {value : α}
    (holds : ∀ later, regime.Grown world later → post later value) :
    regime.Follows world post (pure value) :=
  fun state grown _ => ⟨.refl, holds state grown⟩

theorem follows_fail {post : State → α → Prop} {fault : Fault}
    (allows : ∀ later, regime.Grown world later → regime.Admits later →
      regime.Allows (.fault fault)) :
    regime.Follows world post (Evaluation.fail fault) :=
  fun state grown admits => ⟨.refl, allows state grown admits⟩

theorem follows_tooDeep {post : State → α → Prop} :
    regime.Follows world post (throw .tooDeep) :=
  fun _ _ _ => ⟨.refl, regime.tooDeep⟩

/-- What a computation gives may be used for less. -/
theorem Follows.imp {between post : State → α → Prop} {computation : Evaluation α}
    (follows : regime.Follows world between computation)
    (implies : ∀ later value, regime.Grown world later → between later value → post later value) :
    regime.Follows world post computation := by
  intro state grown admits
  have ends := follows state grown admits
  cases result : computation state with
  | ok value after =>
      rw [result] at ends
      exact ⟨ends.1, implies after value (grown.trans ends.1) ends.2⟩
  | error stop after =>
      rw [result] at ends
      exact ends

theorem Ends.bind {between : State → α → Prop} {post : State → β → Prop} {first : Evaluation α}
    {next : α → Evaluation β} (ends : regime.Ends between state (first state))
    (goesOn : ∀ value after, first state = .ok value after → regime.Grown state after →
      between after value → regime.Ends post after (next value after)) :
    regime.Ends post state ((first >>= next) state) := by
  rw [Evaluation.bind_apply]
  cases result : first state with
  | error stop after =>
      rw [result] at ends
      exact ends
  | ok value after =>
      rw [result] at ends
      obtain ⟨grown, holds⟩ := ends
      exact (goesOn value after result grown holds).after grown

/-- One computation after another: the second starts in the state that the first one left. -/
theorem Follows.bind {between : State → α → Prop} {post : State → β → Prop}
    {first : Evaluation α} {next : α → Evaluation β}
    (follows : regime.Follows world between first)
    (goesOn : ∀ later value, regime.Grown world later → between later value →
      regime.Follows later post (next value)) :
    regime.Follows world post (first >>= next) := by
  intro state grown admits
  refine (follows state grown admits).bind fun value after _ changes holds => ?_
  exact goesOn after value (grown.trans changes) holds after .refl (changes.admits admits)

/-! ## Primitive computations -/

theorem follows_lookup {scope : ScopeId} {name : String} {span : Span} {phrase : Phrase}
    (fits : regime.Fits world scope [phrase])
    (raises : phrase.Raises (.scope (.unresolved name) span)) (noCall : phrase.kind ≠ .call) :
    regime.Follows world regime.Knows (Evaluation.lookup scope name span) := by
  intro state grown admits
  have fitsNow := grown.fits fits
  rw [Evaluation.lookup_apply]
  cases found : state.store.lookup scope name with
  | ok value => exact ⟨.refl, regime.read admits (regime.seen fitsNow) found⟩
  | error error =>
      obtain ⟨rfl, refuses⟩ := Store.refuses_of_lookup found
      refine ⟨.refl, regime.raises admits fitsNow
        ⟨raises, fun _ _ same => ?_, fun isCall => absurd isCall noCall⟩⟩
      cases same
      exact refuses

theorem refuses_of_declares {store : Store} {scope : ScopeId} {name : String} {place : Span}
    (declared : store.declares scope name = true) (error : ScopeError) (span : Span)
    (same : Fault.scope (.alreadyDeclared name) place = .scope error span) :
    store.Refuses scope error := by
  cases same
  exact .alreadyDeclared declared

theorem done_bind {scope : ScopeId} {name : String} {binding : Binding} {phrase : Phrase}
    (names : phrase.declaredNames = [name]) :
    (state.bind scope name binding).Done scope phrase := by
  intro present other member
  rw [names, List.mem_singleton] at member
  rw [member]
  exact Store.declares_bind_self (Store.has_bind.1 present)

theorem follows_declareVariable {scope : ScopeId} {name : String} {initial : Option Phrase}
    {value : Value} {constant : Bool} {span : Span}
    (fits : regime.Fits world scope [.variableDeclaration name initial constant span])
    (known : regime.Knows world value) :
    regime.Follows world
      (fun after value => regime.Knows after value ∧
        after.Done scope (.variableDeclaration name initial constant span))
      (Evaluation.declare scope name value constant span) := by
  intro state grown admits
  have fitsNow := grown.fits fits
  rw [Evaluation.declare_apply]
  cases declared : state.store.declares scope name with
  | true =>
      exact ⟨.refl, regime.raises admits fitsNow ⟨.declared, refuses_of_declares declared, nofun⟩⟩
  | false =>
      have change := regime.declareVariable admits fitsNow declared (grown.knows known)
      exact ⟨.single change, regime.knows change (grown.knows known), done_bind rfl⟩

theorem follows_declareFunction {scope : ScopeId} {name : String} {parameters : List String}
    {body : List Phrase} {span : Span} (text : Nat)
    (fits : regime.Fits world scope [.functionDeclaration name parameters body span]) :
    regime.Follows world
      (fun after value => regime.Knows after value ∧
        after.Done scope (.functionDeclaration name parameters body span))
      (Evaluation.declare scope name
        (.function ⟨name, parameters, body, ⟨text, span⟩, scope⟩) true span) := by
  intro state grown admits
  have fitsNow := grown.fits fits
  rw [Evaluation.declare_apply]
  cases declared : state.store.declares scope name with
  | true =>
      exact ⟨.refl, regime.raises admits fitsNow
        ⟨.functionDeclared, refuses_of_declares declared, nofun⟩⟩
  | false =>
      obtain ⟨change, known⟩ := regime.declareFunction text admits fitsNow declared
      exact ⟨.single change, known, done_bind rfl⟩

theorem follows_assign {scope : ScopeId} {name : String} {target written : Phrase} {value : Value}
    {span : Span} (fits : regime.Fits world scope [.assignment target written span])
    (named : target.name? = some name) (known : regime.Knows world value) :
    regime.Follows world regime.Knows (Evaluation.assign scope name value target.span) := by
  intro state grown admits
  have fitsNow := grown.fits fits
  rw [Evaluation.assign_apply]
  cases found : state.store.assignable scope name with
  | ok owner =>
      have change := regime.assign admits fitsNow named found (grown.knows known)
      exact ⟨.single change, regime.knows change (grown.knows known)⟩
  | error error =>
      obtain ⟨which, refuses⟩ := Store.refuses_of_assignable found
      have raises : (Phrase.assignment target written span).Raises (.scope error target.span) := by
        rcases which with rfl | rfl
        · exact .targetUnresolved named
        · exact .targetConstant named
      refine ⟨.refl, regime.raises admits fitsNow ⟨raises, fun _ _ same => ?_, nofun⟩⟩
      cases same
      exact refuses

/-- Declaring the parameters of a function in a scope that was opened for it and that declares only
some of them yet.  Whatever it declares already is a parameter twice. -/
theorem ends_declareAll {world : State} {function : Function} {scope : ScopeId} {span : Span}
    (calls : regime.Calls world function span) {state : State} (admits : regime.Admits state)
    (opens : regime.Opens state function scope) (present : state.store.Has scope)
    {earlier : List String} (bindings : List (String × Value))
    (bound : ∀ binding ∈ bindings, regime.Knows state binding.2)
    (parameters : function.parameters = earlier ++ bindings.map Prod.fst)
    (exactly : ∀ name, state.store.declares scope name = true ↔ name ∈ earlier) :
    regime.Ends (fun after _ => regime.Fits after scope function.body) state
      (Evaluation.declareAll scope span bindings state) := by
  induction bindings generalizing state earlier with
  | nil =>
      rw [List.map_nil, List.append_nil] at parameters
      refine ⟨.refl, regime.body opens present fun name member => ?_⟩
      exact (exactly name).2 (parameters ▸ member)
  | cons head rest inductionHypothesis =>
      obtain ⟨name, value⟩ := head
      rw [Evaluation.declareAll_cons_apply]
      cases declared : state.store.declares scope name with
      | true =>
          have twice : 2 ≤ function.parameters.count name := by
            have once := List.count_pos_iff.2 ((exactly name).1 declared)
            rw [parameters, List.count_append, List.map_cons, List.count_cons_self]
            omega
          exact ⟨.refl, regime.repeated calls twice⟩
      | false =>
          have change := regime.parameter admits opens declared (bound (name, value) (.head _))
          refine Ends.after (inductionHypothesis (regime.admits change admits)
            (regime.opens change opens) (Store.has_bind.2 present) (fun binding member => ?_)
            (parameters.trans (List.append_cons ..)) fun key => ?_) (.single change)
          · exact regime.knows change (bound binding (.tail _ member))
          · change (state.store.bind scope name _).declares scope key = true ↔ _
            rw [List.mem_append, List.mem_singleton, ← exactly key]
            by_cases same : key = name
            · rw [same]
              exact iff_of_true (Store.declares_bind_self present) (.inr rfl)
            · rw [Store.declares, Store.binding?_bind_of_elsewhere fun both => same both.2,
                ← Store.declares]
              exact (or_iff_left same).symm

/-- A function starts in a scope of its own, in which its body may be evaluated. -/
theorem follows_enter {function : Function} {arguments : List Value} {span : Span}
    (calls : regime.Calls world function span) (known : regime.Knows world (.function function))
    (lengths : arguments.length = function.parameters.length)
    (given : ∀ argument ∈ arguments, regime.Knows world argument) :
    regime.Follows world (fun after scope => regime.Fits after scope function.body)
      (function.enter arguments span) := by
  intro state grown admits
  obtain ⟨change, opens⟩ := regime.enclose admits (grown.knows known)
  have names : function.parameters =
      [] ++ (function.parameters.zip arguments).map Prod.fst := by
    rw [List.nil_append, List.map_fst_zip (Nat.le_of_eq lengths.symm)]
  have entered := ends_declareAll calls (regime.admits change admits) opens
    (state.has_size_addEnclosed _) (function.parameters.zip arguments)
    (fun binding member => regime.knows change
      (grown.knows (given binding.2 (List.of_mem_zip member).2)))
    names fun name => by
      rw [Store.declares, state.binding?_size_addEnclosed]
      simp
  rw [Function.enter, Evaluation.bind_apply, Evaluation.addEnclosed_apply]
  refine Ends.after ?_ (.single change)
  exact entered.bind fun _ after _ _ fits => ⟨.refl, fits⟩

/-! ## Rules of evaluation -/

theorem knows_number {value : Number} : regime.Knows state (.number value) :=
  regime.plain ⟨nofun, nofun⟩

theorem knows_null : regime.Knows state .null :=
  regime.plain ⟨nofun, nofun⟩

theorem follows_arithmetic {scope : ScopeId} {first second : Phrase} {operator : Operator}
    {span : Span} (fits : regime.Fits world scope [.binary first operator second span])
    (left right : Number) :
    regime.Follows world regime.Knows (Evaluation.arithmetic operator left right span) := by
  have number : ∀ result, regime.Follows world regime.Knows
      (pure (.number result) : Evaluation Value) :=
    fun result => follows_pure fun _ _ => knows_number
  have divided (divides : operator = .divide ∨ operator = .modulo) :
      regime.Follows world regime.Knows
        (Evaluation.fail (.divisionByZero span) : Evaluation Value) :=
    follows_fail fun _ grown admits =>
      regime.raises admits (grown.fits fits) ⟨.division divides, nofun, nofun⟩
  cases operator with
  | add => exact number _
  | subtract => exact number _
  | multiply => exact number _
  | divide =>
      unfold Evaluation.arithmetic
      dsimp only
      split
      · exact divided (.inl rfl)
      · exact number _
  | modulo =>
      unfold Evaluation.arithmetic
      dsimp only
      split
      · exact divided (.inr rfl)
      · exact number _

theorem follows_operate {scope : ScopeId} {first second : Phrase} {operator : Operator}
    {span : Span} (fits : regime.Fits world scope [.binary first operator second span])
    (left right : Value) :
    regime.Follows world regime.Knows (Evaluation.operate operator left right span) := by
  unfold Evaluation.operate
  split
  · exact follows_arithmetic fits _ _
  · exact follows_pure fun _ _ => knows_null

theorem follows_propertyKey {scope : ScopeId} {object property : Phrase} {span : Span}
    (fits : regime.Fits world scope [.member object property true span]) (key : Value) :
    regime.Follows world (fun _ _ => True) (Evaluation.propertyKey key property.span) := by
  unfold Evaluation.propertyKey
  split
  · exact follows_pure fun _ _ => trivial
  · exact follows_pure fun _ _ => trivial
  · exact follows_fail fun _ grown admits =>
      regime.raises admits (grown.fits fits) ⟨.computedKey, nofun, nofun⟩

theorem follows_readProperty {scope : ScopeId} {object property : Phrase} {computed : Bool}
    {span : Span} (fits : regime.Fits world scope [.member object property computed span])
    {target : Value} (known : regime.Knows world target) (key : String) :
    regime.Follows world regime.Knows (Evaluation.readProperty target key object.span) := by
  unfold Evaluation.readProperty
  split
  · next properties =>
      refine follows_pure fun later grown => ?_
      cases found : properties.find? key with
      | none => exact knows_null
      | some value => exact grown.knows (regime.property known found)
  · exact follows_fail fun _ grown admits =>
      regime.raises admits (grown.fits fits) ⟨.object, nofun, nofun⟩

/-- An invoker under which known functions follow a regime. -/
structure Trusts (regime : Regime) (invoker : Invoker) : Prop where
  uses : regime.Uses invoker
  function : ∀ {world function arguments span}, regime.Calls world function span →
    regime.Knows world (.function function) →
      (∀ argument ∈ arguments, regime.Knows world argument) →
        regime.Follows world regime.Knows (invoker.function function arguments span)
  native : ∀ {world scope arguments} function, regime.Fits world scope [] →
    (∀ argument ∈ arguments, regime.Knows world argument) →
      regime.Follows world regime.Knows (invoker.native function arguments scope)

/-- In which text phrases stand has no say in how functions run. -/
theorem Trusts.within {invoker : Invoker} (trusts : regime.Trusts invoker) (text : Nat) :
    regime.Trusts (invoker.within text) :=
  ⟨regime.within text trusts.uses, trusts.function, trusts.native⟩

theorem follows_callValue {invoker : Invoker} (trusts : regime.Trusts invoker) {scope : ScopeId}
    {callee : Phrase} {listed : List Phrase} {span : Span} {function : Value}
    {arguments : List Value} (fits : regime.Fits world scope [.call callee listed span])
    (calls : ∀ declared, function = .function declared → regime.Calls world declared span)
    (known : regime.Knows world function)
    (given : ∀ argument ∈ arguments, regime.Knows world argument) :
    regime.Follows world regime.Knows
      (Evaluation.callValue invoker scope function arguments callee.span span) := by
  unfold Evaluation.callValue
  split
  · next declared => exact trusts.function (calls declared rfl) known given
  · next provided => exact trusts.native provided (regime.seen fits) given
  · exact follows_fail fun _ grown admits =>
      regime.raises admits (grown.fits fits) ⟨.callee, nofun, fun _ => ⟨_, _, rfl⟩⟩

end Regime

end NanoScript
