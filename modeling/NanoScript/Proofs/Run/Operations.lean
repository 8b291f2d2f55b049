import NanoScript.Proofs.Evaluation.Following
import NanoScript.Proofs.Run.Start
import NanoScript.Proofs.Scope.WellFormed

/-!
Contract: every store that can be reached is well-formed, and scopes stay where they were made.

Owns:
- the operations through which code can change a state, and that each of them keeps stores
  well-formed and leaves the parents and depths of all scopes as they were;
- the regime in which an evaluation makes such operations only, and the hosts that stay within it;
- the steps that a program takes which embeds the interpreter, and the states that such steps reach.

Neither a declaration nor a call checks anything about scopes.  It is that a value contains only
functions whose scopes are there which makes the scope of a call lie in a scope of the store.
-/

namespace NanoScript

open Relation

/-! ## Operations -/

/-- The functions in a value see scopes of the store. -/
def Store.HasClosures (store : Store) (value : Value) : Prop :=
  ∀ function ∈ value.functions, store.Has function.closure

/-- One operation on a state.  Declaring, assigning and defining a name all bind it in a scope. -/
inductive State.Operation : State → State → Prop
  | print {state : State} (line : String) : Operation state (state.print line)
  | addText {state : State} : Operation state state.addText
  | addOutermost {state : State} : Operation state ⟨state.store.addOutermost.2, state.output⟩
  | addEnclosed {state : State} {parent : ScopeId} (present : state.store.Has parent) :
      Operation state (state.addEnclosed parent)
  | bind {state : State} {owner : ScopeId} {name : String} {binding : Binding}
      (present : state.store.Has owner) (closures : state.store.HasClosures binding.value) :
      Operation state (state.bind owner name binding)

/-- A state whose store is well-formed and binds no function that sees a missing scope. -/
structure State.WellFormed (state : State) : Prop where
  store : state.store.WellFormed
  closures : ∀ {function}, state.store.Holds function → state.store.Has function.closure

/-- Scopes that were there still are, as deep as they were and with the same scope around them. -/
def Store.KeepsPlaces (before after : Store) : Prop :=
  ∀ {id}, before.Has id →
    after.Has id ∧ after.parent? id = before.parent? id ∧ after.depth id = before.depth id

namespace Store

variable {store : Store} {owner : ScopeId} {name : String} {binding : Binding}

theorem KeepsPlaces.refl (store : Store) : store.KeepsPlaces store :=
  fun present => ⟨present, rfl, rfl⟩

theorem KeepsPlaces.trans {first second third : Store} (early : first.KeepsPlaces second)
    (late : second.KeepsPlaces third) : first.KeepsPlaces third := by
  intro id present
  obtain ⟨still, sameParent, sameDepth⟩ := early present
  obtain ⟨last, laterParent, laterDepth⟩ := late still
  exact ⟨last, laterParent.trans sameParent, laterDepth.trans sameDepth⟩

theorem keepsPlaces_bind : store.KeepsPlaces (store.bind owner name binding) :=
  fun present => ⟨has_bind.2 present, parent?_bind .., depth_bind ..⟩

/-- A new scope leaves all others in their places. -/
theorem keepsPlaces_push (scope : Scope) : store.KeepsPlaces (store.push scope) := by
  intro id present
  have older : id ≠ store.nextId := fun same => store.not_has_nextId (same ▸ present)
  simp [has_push, present, parent?, depth, scope?_push, older]

end Store

namespace State.Operation

variable {before after : State}

theorem keepsPlaces (operation : Operation before after) :
    before.store.KeepsPlaces after.store := by
  cases operation with
  | print line => exact Store.KeepsPlaces.refl _
  | addText => exact fun present => ⟨present, rfl, rfl⟩
  | addOutermost => exact Store.keepsPlaces_push _
  | addEnclosed present => exact Store.keepsPlaces_push _
  | bind present closures => exact Store.keepsPlaces_bind

theorem wellFormed (operation : Operation before after) (sound : before.WellFormed) :
    after.WellFormed := by
  have still {function : Function} (held : before.store.Holds function) :
      after.store.Has function.closure :=
    (operation.keepsPlaces (sound.closures held)).1
  cases operation with
  | print line => exact ⟨sound.store, still⟩
  | addText => exact ⟨sound.store.addText, still⟩
  | addOutermost => exact ⟨sound.store.addOutermost, fun held => still (held.of_push rfl)⟩
  | addEnclosed present =>
      exact ⟨sound.store.addEnclosed present, fun held => still (held.of_push rfl)⟩
  | bind present closures =>
      refine ⟨sound.store.bind, fun {function} held => ?_⟩
      rcases held.of_bind with inBinding | inStore
      · exact Store.has_bind.2 (closures function inBinding)
      · exact still inStore

end State.Operation

/-! ## Evaluation by operations -/

/-- The evaluations in states that operations have made out of a given one.  They change states by
further operations, in scopes that are there, and meet functions whose scopes are there. -/
def Regime.operations (start : State) : Regime where
  Admits state := state.WellFormed ∧ ReflTransGen State.Operation start state
  Knows state value := state.store.HasClosures value
  Fits state scope _ := state.store.Has scope
  Opens state _ scope := state.store.Has scope
  Calls _ _ _ := True
  Uses _ := True
  Allows _ := True
  Change := State.Operation
  admits operation admitted := ⟨operation.wellFormed admitted.1, admitted.2.tail operation⟩
  knows operation closures function member := (operation.keepsPlaces (closures function member)).1
  fits operation present := (operation.keepsPlaces present).1
  opens operation present := (operation.keepsPlaces present).1
  within _ uses := uses
  plain isPlain := Value.forall_functions_of_isPlain isPlain
  empty := nofun
  insert key object value := Value.forall_functions_insert key object value
  property object found := Value.forall_functions_property object found
  seen present := present
  part present _ _ := present
  block present := present
  head present := present
  next present _ := present
  read admitted _ found := fun _ member =>
    admitted.1.closures (Store.holds_of_lookup found member)
  declareVariable _ present _ closures := .bind present closures
  declareFunction {state scope name _ _ _} _ _ present _ := by
    refine ⟨.bind present fun function member => ?_, fun function member => ?_⟩
    · rw [List.mem_singleton.1 member]
      exact present
    · rw [List.mem_singleton.1 member]
      exact Store.has_bind.2 present
  assign _ _ _ found closures := by
    obtain ⟨_, binding, bound, _⟩ := Store.assignable_eq_ok found
    exact .bind (Store.has_of_binding? bound) closures
  enclose {state function} _ closures :=
    ⟨.addEnclosed (closures function (List.mem_singleton.2 rfl)),
      state.has_size_addEnclosed function.closure⟩
  parameter _ present _ closures := .bind present closures
  body present _ _ := present
  call _ _ _ _ _ := trivial
  tooDeep := trivial
  raises _ _ _ := trivial
  arity _ _ := trivial
  repeated _ _ := trivial

/-- The functions of a host that is lawful from a state on change states by operations only, as long
as the functions that they call do.  They may know any scope and any function that is there by
then. -/
def Host.LawfulSince (host : Host) (start : State) : Prop :=
  (Regime.operations start).Covers host

theorem Host.standard_lawful (start : State) : Host.standard.LawfulSince start :=
  Regime.covers_standard fun line => State.Operation.print line

/-! ## Steps -/

/-- One step of a program that embeds the interpreter.  It makes a scope, uses a name of one, runs a
text or calls a function; whether that succeeds or fails, the state is the one it leaves.  The
functions of the host may be others in every step. -/
inductive State.Step : State → State → Prop
  | addOutermost {state : State} : Step state ⟨state.store.addOutermost.2, state.output⟩
  | addGlobal {state : State} : Step state ⟨state.store.addGlobal.2, state.output⟩
  | addEnclosed {state : State} {parent : ScopeId} (present : state.store.Has parent) :
      Step state (state.addEnclosed parent)
  | declare {state : State} {scope : ScopeId} (name : String) {value : Value} (constant : Bool)
      (span : Span) (present : state.store.Has scope) (closures : state.store.HasClosures value) :
      Step state ((Evaluation.declare scope name value constant span).outcome state).2
  | assign {state : State} {scope : ScopeId} (name : String) {value : Value} (span : Span)
      (present : state.store.Has scope) (closures : state.store.HasClosures value) :
      Step state ((Evaluation.assign scope name value span).outcome state).2
  | defineNative {state : State} {scope : ScopeId} (name callback : String)
      (present : state.store.Has scope) :
      Step state ⟨state.store.defineNative scope name callback, state.output⟩
  | run {state : State} {scope : ScopeId} {host : Host} (lawful : host.LawfulSince state)
      (depth : Nat) (source : String) (present : state.store.Has scope) :
      Step state (NanoScript.run (Invoker.upTo host depth) source scope state).2
  | call {state : State} {function : Function} {arguments : List Value} {host : Host}
      (lawful : host.LawfulSince state) (depth : Nat) (span : Span)
      (present : state.store.Has function.closure)
      (given : ∀ argument ∈ arguments, state.store.HasClosures argument) :
      Step state ((function.run (Invoker.upTo host depth) arguments span).outcome state).2

/-- A state is reached, from no scopes at all, by steps. -/
def State.Reached (state : State) : Prop :=
  ReflTransGen State.Step ⟨.empty, #[]⟩ state

/-- A global scope is made by adding an outermost one and binding the names that every program may
use. -/
theorem State.operations_addGlobal (state : State) :
    ReflTransGen State.Operation state ⟨state.store.addGlobal.2, state.output⟩ := by
  have present : state.store.addOutermost.2.Has state.store.nextId := Store.has_push.2 (.inr rfl)
  have first : ReflTransGen State.Operation state ⟨state.store.addOutermost.2, state.output⟩ :=
    .single .addOutermost
  have constant {before : State} (name : String) (value : Value)
      (isThere : before.store.Has state.store.nextId) (isPlain : value.IsPlain) :
      State.Operation before (before.bind state.store.nextId name ⟨value, true⟩) :=
    .bind isThere (Value.forall_functions_of_isPlain isPlain)
  exact (((first.tail (constant "true" (.boolean true) present ⟨nofun, nofun⟩)).tail
    (constant "false" (.boolean false) (by simp [State.bind, present]) ⟨nofun, nofun⟩)).tail
    (constant "null" .null (by simp [State.bind, present]) ⟨nofun, nofun⟩)).tail
    (constant "print" (.native ⟨"print", Host.printKey⟩) (by simp [State.bind, present])
      ⟨nofun, nofun⟩)

/-- Every step is a sequence of operations. -/
theorem State.Step.operations {before after : State} (step : State.Step before after)
    (sound : before.WellFormed) : ReflTransGen State.Operation before after := by
  have made {computation : Evaluation Value} {post : State → Value → Prop}
      (follows : (Regime.operations before).Follows before post computation) :
      ReflTransGen State.Operation before (computation.outcome before).2 :=
    (follows before .refl ⟨sound, .refl⟩).grown
  cases step with
  | addOutermost => exact .single .addOutermost
  | addGlobal => exact before.operations_addGlobal
  | addEnclosed present => exact .single (.addEnclosed present)
  | @declare scope name value constant span present closures =>
      have fits : (Regime.operations before).Fits before scope
        [.variableDeclaration name none constant span] := present
      exact made (Regime.follows_declareVariable fits closures)
  | @assign scope name value span present closures =>
      have fits : (Regime.operations before).Fits before scope
        [.assignment (.identifier name span) (.identifier name span) span] := present
      exact made (Regime.follows_assign fits rfl closures)
  | defineNative name callback present =>
      exact .single (.bind present (Value.forall_functions_of_isPlain ⟨nofun, nofun⟩))
  | @run scope host lawful depth source present =>
      cases reads : Phrase.ofSource source with
      | error error => rw [run_of_fails _ reads]
      | ok program =>
          have counted : State.Operation before before.addText := .addText
          have trusts := (Regime.Covers.trusts lawful (fun _ => trivial) depth).within
            before.store.texts
          have isThere : before.addText.store.Has scope := present
          rw [run_of_reads _ reads]
          exact .head counted (Phrase.evaluate_follows trusts program isThere before.addText .refl
            ⟨counted.wellFormed sound, .single counted⟩).grown
  | call lawful depth span present given =>
      refine made (Function.run_follows (Regime.Covers.trusts lawful (fun _ => trivial) depth)
        trivial (fun function member => ?_) given)
      rw [List.mem_singleton.1 member]
      exact present

/-- What a sequence of operations leaves is well-formed, and no scope has moved. -/
theorem State.wellFormed_of_operations {before after : State}
    (operations : ReflTransGen State.Operation before after) (sound : before.WellFormed) :
    after.WellFormed ∧ before.store.KeepsPlaces after.store := by
  induction operations with
  | refl => exact ⟨sound, Store.KeepsPlaces.refl _⟩
  | tail _ operation inductionHypothesis =>
      obtain ⟨stillSound, places⟩ := inductionHypothesis
      exact ⟨operation.wellFormed stillSound, places.trans operation.keepsPlaces⟩

theorem State.operations_of_steps {before after : State}
    (steps : ReflTransGen State.Step before after) (sound : before.WellFormed) :
    ReflTransGen State.Operation before after := by
  induction steps with
  | refl => exact .refl
  | tail _ step inductionHypothesis =>
      have stillSound := (State.wellFormed_of_operations inductionHypothesis sound).1
      exact inductionHypothesis.trans (step.operations stillSound)

theorem State.wellFormed_empty : (State.mk .empty #[]).WellFormed := by
  refine ⟨Store.wellFormed_empty, ?_⟩
  rintro function ⟨id, scope, present, _⟩
  exact absurd (Store.has_of_scope? present) (Nat.not_lt_zero _)

/-! ## Forests -/

/-- The scopes of a store form trees whose roots have depth zero, and every way outwards is a finite
one to a root, on which no scope is met twice. -/
structure Store.Forest (store : Store) : Prop where
  constants : ∀ id name, store.isConstant id name = true → store.declares id name = true
  outermost : ∀ id, store.Has id → store.parent? id = none → store.depth id = 0
  enclosed : ∀ id parent, store.parent? id = some parent →
    store.Has parent ∧ store.depth id = store.depth parent + 1
  once : ∀ id, store.Has id → ∀ first second owner, store.outwards first id = some owner →
    store.outwards second id = some owner → first = second
  ends : ∀ id, store.Has id → ∃ root, store.outwards (store.depth id) id = some root ∧
    store.Has root ∧ store.depth root = 0 ∧ store.parent? root = none
  chain : ∀ id, (store.chain id).map some =
    (List.range (store.depth id + 1)).map fun steps => store.outwards steps id
  settles : ∀ id steps, store.depth id ≤ steps → store.chainWithin steps id = store.chain id

theorem Store.WellFormed.forest {store : Store} (wellFormed : store.WellFormed) :
    store.Forest where
  constants _ _ marked := wellFormed.constants marked
  outermost _ present none := wellFormed.outermost present none
  enclosed _ _ found := wellFormed.enclosed found
  once _ present _ _ _ early late := wellFormed.outwards_injective present early late
  ends id present := by
    cases reached : store.outwards (store.depth id) id with
    | none =>
        have further := (wellFormed.outwards_eq_none_iff present).1 reached
        omega
    | some root =>
        obtain ⟨rootPresent, depths⟩ := wellFormed.outwards_some present reached
        refine ⟨root, rfl, rootPresent, by omega, ?_⟩
        cases around : store.parent? root with
        | none => rfl
        | some parent =>
            have deeper := (wellFormed.enclosed around).2
            omega
  chain id := wellFormed.chain_outwards id
  settles _ _ enough := wellFormed.chainWithin_eq_chain enough

/-- Whatever steps have led to a state, its scopes form a forest, and further steps leave every
scope at its place in it. -/
theorem State.forest_of_reached {state : State} (reached : state.Reached) :
    state.store.Forest ∧
      ∀ later, ReflTransGen State.Step state later → ∀ id, state.store.Has id →
        later.store.Has id ∧ later.store.parent? id = state.store.parent? id ∧
          later.store.depth id = state.store.depth id := by
  have made := State.operations_of_steps reached State.wellFormed_empty
  have sound := (State.wellFormed_of_operations made State.wellFormed_empty).1
  refine ⟨sound.store.forest, fun later steps id present => ?_⟩
  have further := State.operations_of_steps steps sound
  exact (State.wellFormed_of_operations further sound).2 present

/-- The state after a text that declares a function and calls it in the global scope. -/
def State.afterCall : State :=
  (run (Invoker.upTo Host.standard 1) "fn f() { } f()" State.initial.1 State.initial.2).2

/-- The scope of the call lies in the global scope, and stays there whatever follows. -/
theorem State.scope_of_call_stays_in_global :
    State.afterCall.Reached ∧
      State.afterCall.store.Forest ∧
        ∀ later, ReflTransGen State.Step State.afterCall later →
          later.store.parent? ⟨1⟩ = some ⟨0⟩ ∧ later.store.depth ⟨1⟩ = 1 := by
  have global : State.initial.2.Reached := .single .addGlobal
  have reached : State.afterCall.Reached :=
    .tail global (.run (Host.standard_lawful _) 1 "fn f() { } f()" (by decide))
  have scopes : State.afterCall.store.Has ⟨1⟩ ∧
      State.afterCall.store.parent? ⟨1⟩ = some ⟨0⟩ ∧ State.afterCall.store.depth ⟨1⟩ = 1 := by
    decide +kernel
  obtain ⟨forest, places⟩ := State.forest_of_reached reached
  refine ⟨reached, forest, fun later steps => ?_⟩
  obtain ⟨_, sameParent, sameDepth⟩ := places later steps ⟨1⟩ scopes.1
  exact ⟨sameParent.trans scopes.2.1, sameDepth.trans scopes.2.2⟩

end NanoScript
