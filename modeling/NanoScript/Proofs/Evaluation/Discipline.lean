import NanoScript.Proofs.Evaluation.Following

/-!
Contract: evaluations that stay within what is fixed in advance.

Owns:
- disciplines: a choice of scopes, of functions and of phrases that an evaluation stays within;
- the changes of a state that are possible within a discipline, each with the phrase that makes it;
- the regime of a discipline, and with it the theorem that every evaluation that starts within a
  discipline stays there: it is a sequence of such changes, its value contains only functions of the
  discipline, and its failure is one that a phrase of the discipline may raise.

Invariants of evaluation follow from the changes alone, by induction on their sequence.
-/

namespace NanoScript

open Relation

/-- What an evaluation stays within, from a state with `base` scopes on: the scopes it sees, the
functions it meets and the phrases it evaluates in scopes.  Functions and phrases may come into the
discipline when scopes are made, and stay there. -/
structure Discipline where
  base : Nat
  scopes : ScopeId → Prop
  functions : Nat → Function → Prop
  fits : Nat → ScopeId → Phrase → Prop
  fresh : ∀ {id}, base ≤ id.index → scopes id
  functions_mono : ∀ {size larger function}, size ≤ larger → functions size function →
    functions larger function
  fits_mono : ∀ {size larger scope phrase}, size ≤ larger → fits size scope phrase →
    fits larger scope phrase
  closure : ∀ {size function}, functions size function → scopes function.closure
  scope : ∀ {size scope phrase}, fits size scope phrase → scopes scope
  part : ∀ {size scope whole phrase}, fits size scope whole → phrase ∈ whole.evaluated →
    fits size scope phrase
  declared : ∀ {size scope name parameters body span} text,
    fits size scope (.functionDeclaration name parameters body span) →
      functions size ⟨name, parameters, body, ⟨text, span⟩, scope⟩
  body : ∀ {size function phrase}, base ≤ size → functions size function →
    phrase ∈ function.body → fits (size + 1) ⟨size⟩ phrase

namespace Discipline

variable (discipline : Discipline)

/-- All functions in a value are within the discipline. -/
def Values (size : Nat) (value : Value) : Prop :=
  ∀ function ∈ value.functions, discipline.functions size function

/-- The visible scopes of a state have visible parents and bind only values within the
discipline. -/
structure Admits (state : State) : Prop where
  enough : discipline.base ≤ state.size
  parents : ∀ id parent, discipline.scopes id → state.store.parent? id = some parent →
    discipline.scopes parent
  values : ∀ id scope, discipline.scopes id → state.store.scope? id = some scope →
    ∀ entry ∈ scope.values.entries, discipline.Values state.size entry.2

/-- One change of a state within the discipline, with what makes it. -/
inductive Change : State → State → Prop
  | print {state : State} (line : String) : Change state (state.print line)
  | declareVariable {state : State} {scope : ScopeId} {name : String} {initial : Option Phrase}
      {constant : Bool} {span : Span} {value : Value}
      (fits : discipline.fits state.size scope (.variableDeclaration name initial constant span))
      (undeclared : state.store.declares scope name = false)
      (within : discipline.Values state.size value) :
      Change state (state.bind scope name ⟨value, constant⟩)
  | declareFunction {state : State} {scope : ScopeId} {name : String} {parameters : List String}
      {body : List Phrase} {span : Span} (text : Nat)
      (fits : discipline.fits state.size scope (.functionDeclaration name parameters body span))
      (undeclared : state.store.declares scope name = false) :
      Change state
        (state.bind scope name ⟨.function ⟨name, parameters, body, ⟨text, span⟩, scope⟩, true⟩)
  | bindParameter {state : State} {scope : ScopeId} {name : String} {value : Value}
      (fresh : discipline.base ≤ scope.index)
      (undeclared : state.store.declares scope name = false)
      (within : discipline.Values state.size value) :
      Change state (state.bind scope name ⟨value, false⟩)
  | assign {state : State} {scope owner : ScopeId} {name : String} {target written : Phrase}
      {span : Span} {value : Value}
      (fits : discipline.fits state.size scope (.assignment target written span))
      (named : target.name? = some name)
      (found : state.store.assignable scope name = .ok owner)
      (within : discipline.Values state.size value) :
      Change state (state.bind owner name ⟨value, false⟩)
  | enclose {state : State} {function : Function}
      (within : discipline.functions state.size function) :
      Change state (state.addEnclosed function.closure)

/-- A call of the discipline has come to the function that it runs: in a state that changes have
made out of the given one, its callee has given the function. -/
def CallsFrom (start after : State) (function : Function) (span : Span) : Prop :=
  ∃ scope callee arguments, ∃ before : State, ∃ depth text,
    discipline.fits before.size scope (.call callee arguments span) ∧
      ReflTransGen discipline.Change start before ∧
      callee.evaluate ((Invoker.upTo Host.standard depth).within text) scope before =
        .ok (.function function) after ∧
      discipline.functions after.size function

/-- A name that was declared already is that of a declaration at the place of the fault, or of a
parameter that the function of a call at that place repeats.  A wrong number of arguments is one for
the function of a call at that place.  Other faults need no further reason. -/
def Warrants (start : State) : Fault → Prop
  | .scope (.alreadyDeclared name) span =>
      (∃ size scope phrase, discipline.fits size scope phrase ∧ name ∈ phrase.declaredNames ∧
        phrase.span = span) ∨
        ∃ after function, discipline.CallsFrom start after function span ∧
          2 ≤ function.parameters.count name
  | .arityMismatch name expected _ span =>
      ∃ after function, discipline.CallsFrom start after function span ∧
        function.name = name ∧ function.parameters.length = expected
  | _ => True

/-- A phrase of the discipline may raise the fault, and there is a reason for it; stopping at the
depth of calls is no fault. -/
def Allows (start : State) : Stop → Prop
  | .tooDeep => True
  | .fault fault =>
      (∃ size scope phrase, discipline.fits size scope phrase ∧ phrase.Raises fault) ∧
        discipline.Warrants start fault

variable {discipline}

/-! ## Values -/

theorem Values.mono {size larger : Nat} {value : Value} (grows : size ≤ larger)
    (within : discipline.Values size value) : discipline.Values larger value :=
  fun function member => discipline.functions_mono grows (within function member)

/-! ## What a change leaves true -/

theorem Change.grows {before after : State} (change : discipline.Change before after) :
    before.size ≤ after.size := by
  cases change <;> simp

/-- Binding a name of a visible scope to a value within the discipline keeps a state admissible. -/
theorem Admits.bind {state : State} (admits : discipline.Admits state) {owner : ScopeId}
    {name : String} {binding : Binding}
    (within : discipline.Values state.size binding.value) :
    discipline.Admits (state.bind owner name binding) := by
  refine ⟨?_, ?_, ?_⟩
  · rw [State.size_bind]
    exact admits.enough
  · intro id parent visible found
    exact admits.parents id parent visible ((Store.parent?_bind ..).symm.trans found)
  · intro id scope visible found entry member
    rw [State.size_bind]
    change (state.store.bind owner name binding).scope? id = some scope at found
    rw [Store.scope?_bind] at found
    split at found
    · obtain ⟨older, present, same⟩ := Option.map_eq_some_iff.1 found
      rw [← same] at member
      rcases Table.eq_or_mem_of_mem_insert member with new | old
      · rw [new]
        exact within
      · exact admits.values id older visible present entry old
    · exact admits.values id scope visible found entry member

theorem Admits.addEnclosed {state : State} (admits : discipline.Admits state) {parent : ScopeId}
    (visible : discipline.scopes parent) : discipline.Admits (state.addEnclosed parent) := by
  have scopes (id : ScopeId) : (state.addEnclosed parent).store.scope? id =
      if id = state.store.nextId then
        some ⟨some parent, state.store.depth parent + 1, .empty, .empty⟩
      else state.store.scope? id := Store.scope?_addEnclosed ..
  refine ⟨?_, ?_, ?_⟩
  · rw [State.size_addEnclosed]
    exact Nat.le_succ_of_le admits.enough
  · intro id outer inside found
    rw [Store.parent?, scopes] at found
    split at found
    · cases found
      exact visible
    · exact admits.parents id outer inside found
  · intro id scope inside found entry member
    rw [scopes] at found
    split at found
    · cases found
      cases member
    · refine (admits.values id scope inside found entry member).mono ?_
      simp

theorem Admits.addText {state : State} (admits : discipline.Admits state) :
    discipline.Admits state.addText :=
  ⟨admits.enough, admits.parents, admits.values⟩

theorem Change.admits {before after : State} (change : discipline.Change before after)
    (admits : discipline.Admits before) : discipline.Admits after := by
  cases change with
  | print line => exact ⟨admits.enough, admits.parents, admits.values⟩
  | declareVariable fits undeclared within => exact admits.bind within
  | declareFunction text fits undeclared =>
      refine admits.bind fun function member => ?_
      rw [List.mem_singleton.1 member]
      exact discipline.declared text fits
  | bindParameter fresh undeclared within => exact admits.bind within
  | assign fits named found within => exact admits.bind within
  | enclose within => exact admits.addEnclosed (discipline.closure within)

/-! ## The regime of a discipline -/

theorem Allows.of_failsIn {start : State} {store : Store} {size : Nat} {scope : ScopeId}
    {phrase : Phrase} {fault : Fault} (fits : discipline.fits size scope phrase)
    (fails : phrase.FailsIn store scope fault) : discipline.Allows start (.fault fault) := by
  refine ⟨⟨_, _, _, fits, fails.raises⟩, ?_⟩
  obtain ⟨raises, _, called⟩ := fails
  cases raises with
  | declared => exact .inl ⟨_, _, _, fits, .head _, rfl⟩
  | functionDeclared => exact .inl ⟨_, _, _, fits, .head _, rfl⟩
  | arity =>
      obtain ⟨_, _, same⟩ := called rfl
      cases same
  | parameterRepeated =>
      obtain ⟨_, _, same⟩ := called rfl
      cases same
  | _ => trivial

/-- What a name stands for that is looked up in a visible scope is within the discipline. -/
theorem Admits.lookup {state : State} (admits : discipline.Admits state) {scope : ScopeId}
    (visible : discipline.scopes scope) {name : String} {value : Value}
    (found : state.store.lookup scope name = .ok value) :
    discipline.Values state.size value := by
  obtain ⟨owner, member, binding, bound, rfl⟩ := Store.lookup_eq_ok found
  obtain ⟨holder, present, listed⟩ := Store.mem_values_of_binding? bound
  have visibleOwner := Store.mem_chain admits.parents visible member
  exact admits.values owner holder visibleOwner present _ listed

/-- The evaluations within a discipline in states that its changes make out of a given one. -/
def regime (discipline : Discipline) (start : State) : Regime where
  Admits state := discipline.Admits state ∧ ReflTransGen discipline.Change start state
  Knows state value := discipline.Values state.size value
  Fits state scope phrases :=
    discipline.scopes scope ∧ ∀ phrase ∈ phrases, discipline.fits state.size scope phrase
  Opens state function scope :=
    discipline.base ≤ scope.index ∧ scope.index < state.size ∧
      discipline.functions scope.index function
  Calls state function span := discipline.CallsFrom start state function span
  Uses invoker := ∃ depth text, invoker = (Invoker.upTo Host.standard depth).within text
  Allows := discipline.Allows start
  Change := discipline.Change
  admits change admits := ⟨change.admits admits.1, admits.2.tail change⟩
  knows change known := known.mono change.grows
  fits change fits :=
    ⟨fits.1, fun phrase member => discipline.fits_mono change.grows (fits.2 phrase member)⟩
  opens change opens := ⟨opens.1, Nat.lt_of_lt_of_le opens.2.1 change.grows, opens.2.2⟩
  within text uses := uses.elim fun depth inText =>
    ⟨depth, text, by rw [inText.choose_spec]; rfl⟩
  plain isPlain := Value.forall_functions_of_isPlain isPlain
  empty := nofun
  insert key object value := Value.forall_functions_insert key object value
  property object found := Value.forall_functions_property object found
  seen fits := ⟨fits.1, nofun⟩
  part fits _ member :=
    ⟨fits.1, List.forall_mem_singleton.2 (discipline.part (fits.2 _ (.head _)) member)⟩
  block fits := ⟨fits.1, fun _ member => discipline.part (fits.2 _ (.head _)) member⟩
  head fits := ⟨fits.1, List.forall_mem_singleton.2 (fits.2 _ (.head _))⟩
  next fits _ := ⟨fits.1, fun phrase member => fits.2 phrase (.tail _ member)⟩
  read admits fits found := admits.1.lookup fits.1 found
  declareVariable _ fits undeclared known :=
    .declareVariable (fits.2 _ (.head _)) undeclared known
  declareFunction text _ fits undeclared := by
    have fitsHere := fits.2 _ (.head _)
    refine ⟨.declareFunction text fitsHere undeclared, fun function member => ?_⟩
    rw [List.mem_singleton.1 member, State.size_bind]
    exact discipline.declared text fitsHere
  assign _ fits named found known := .assign (fits.2 _ (.head _)) named found known
  enclose admits known := by
    have within := known _ (List.mem_singleton.2 rfl)
    exact ⟨.enclose within, admits.1.enough, by simp, within⟩
  parameter _ opens undeclared known := .bindParameter opens.1 undeclared known
  body opens _ _ := ⟨discipline.fresh opens.1, fun phrase member =>
    discipline.fits_mono opens.2.1 (discipline.body opens.1 opens.2.2 member)⟩
  call admits uses fits gives known := by
    obtain ⟨depth, text, rfl⟩ := uses
    exact ⟨_, _, _, _, depth, text, fits.2 _ (.head _), admits.2, gives,
      known _ (List.mem_singleton.2 rfl)⟩
  tooDeep := trivial
  raises _ fits fails := Allows.of_failsIn (fits.2 _ (.head _)) fails
  arity _ calls := by
    obtain ⟨_, _, _, _, _, _, fits, _⟩ := id calls
    exact ⟨⟨_, _, _, fits, .arity⟩, _, _, calls, rfl, rfl⟩
  repeated calls twice := by
    obtain ⟨_, _, _, _, _, _, fits, _⟩ := id calls
    exact ⟨⟨_, _, _, fits, .parameterRepeated⟩, .inr ⟨_, _, calls, twice⟩⟩

theorem covers_standard (start : State) : (discipline.regime start).Covers Host.standard :=
  Regime.covers_standard fun line => Change.print line

theorem uses_upTo (start : State) (depth : Nat) :
    (discipline.regime start).Uses (Invoker.upTo Host.standard depth) :=
  ⟨depth, 0, by cases depth <;> rfl⟩

theorem trusts_upTo (start : State) (depth : Nat) :
    (discipline.regime start).Trusts (Invoker.upTo Host.standard depth) :=
  Regime.Covers.trusts (covers_standard start) (uses_upTo start) depth

/-- Every evaluation of a phrase that fits a discipline stays within it, to whatever depth calls
nest. -/
theorem evaluate_ends (depth text : Nat) {scope : ScopeId} {phrase : Phrase} {state : State}
    (admits : discipline.Admits state) (fits : discipline.fits state.size scope phrase) :
    (discipline.regime state).Ends (discipline.regime state).Knows state
      (phrase.evaluate ((Invoker.upTo Host.standard depth).within text) scope state) := by
  have follows := Phrase.evaluate_follows ((trusts_upTo state depth).within text) phrase
    ⟨discipline.scope fits, List.forall_mem_singleton.2 fits⟩
  exact (follows.imp fun _ _ _ holds => holds.1) state .refl ⟨admits, .refl⟩

/-- Whether an evaluation gives a value or fails, what it left was reached by changes. -/
theorem evaluate_changes (depth text : Nat) {scope : ScopeId} {phrase : Phrase} {state : State}
    (admits : discipline.Admits state) (fits : discipline.fits state.size scope phrase) :
    ReflTransGen discipline.Change state
      ((phrase.evaluate ((Invoker.upTo Host.standard depth).within text) scope).outcome
        state).2 :=
  (evaluate_ends depth text admits fits).grown

/-! ## Sequences of changes -/

theorem grows_of_changes {before after : State}
    (changes : ReflTransGen discipline.Change before after) : before.size ≤ after.size := by
  induction changes with
  | refl => exact Nat.le_refl _
  | tail _ change inductionHypothesis => exact Nat.le_trans inductionHypothesis change.grows

theorem admits_of_changes {before after : State}
    (changes : ReflTransGen discipline.Change before after)
    (admits : discipline.Admits before) : discipline.Admits after := by
  induction changes with
  | refl => exact admits
  | tail _ change inductionHypothesis => exact change.admits inductionHypothesis

end Discipline

end NanoScript
