import NanoScript.Proofs.Evaluation.Discipline
import NanoScript.Proofs.Evaluation.InPlace
import NanoScript.Proofs.Phrase.Relocation

/-!
Contract: evaluation is confined to the scopes that can be reached from where it starts.

Owns:
- the scopes that can be reached from others, along parents and through the functions bound in them;
- renamings of scopes, in values and in scopes;
- confined computations: they leave every other scope as it was, and run alike, up to the names of
  the scopes they make, in all states that agree on what can be reached;
- the theorem that phrases and functions are confined.

The first half is a frame, which follows from the changes that an evaluation can make.  The second
half compares two runs under the likeness in which reachable scopes correspond to themselves.
-/

namespace NanoScript

open Relation

/-! ## Reachable scopes -/

/-- A scope can be reached from others: it is one of them, or the parent of one that can be reached,
or seen by a function that is bound in one that can be reached. -/
inductive Store.Reaches (store : Store) (roots : List ScopeId) : ScopeId → Prop
  | root {id : ScopeId} (member : id ∈ roots) : Reaches store roots id
  | parent {id parent : ScopeId} (inner : Reaches store roots id)
      (found : store.parent? id = some parent) : Reaches store roots parent
  | captured {id : ScopeId} {scope : Scope} {entry : String × Value} {function : Function}
      (holder : Reaches store roots id) (present : store.scope? id = some scope)
      (bound : entry ∈ scope.values.entries) (held : function ∈ entry.2.functions) :
      Reaches store roots function.closure

/-- Two stores have one and the same scope under a name. -/
def Store.Agrees (left right : Store) (id : ScopeId) : Prop :=
  ∃ scope, left.scope? id = some scope ∧ right.scope? id = some scope

/-- The scopes that the functions in a value see. -/
def Value.closures (value : Value) : List ScopeId :=
  value.functions.map Function.closure

/-! ## Renaming scopes -/

/-- The names of the scopes that were made since there were `left` of them, moved to where scopes
are made when there are `right` of them. -/
def ScopeId.move (left right : Nat) (id : ScopeId) : ScopeId :=
  if id.index < left then id else ⟨id.index - left + right⟩

/-- A function that sees a renamed scope. -/
def Function.rename (rename : ScopeId → ScopeId) (function : Function) : Function :=
  { function with closure := rename function.closure }

/-- A value with the scopes of its functions renamed. -/
def Value.rename (rename : ScopeId → ScopeId) : Value → Value :=
  Value.mapFunctions (Function.rename rename)

/-- A scope with its parent and the scopes of its functions renamed. -/
def Scope.rename (rename : ScopeId → ScopeId) (scope : Scope) : Scope :=
  { scope.mapFunctions (Function.rename rename) with parent := scope.parent.map rename }

/-! ## Confined computations -/

/-- A computation that cannot tell, and does not change, what lies in scopes that cannot be reached
from its roots. -/
structure Evaluation.Confined (roots : List ScopeId) (computation : Evaluation Value) : Prop where
  untouched : ∀ state id, state.store.Has id → ¬ state.store.Reaches roots id →
    (computation.outcome state).2.store.scope? id = state.store.scope? id
  unaware : ∀ state other,
    (∀ id, state.store.Reaches roots id → state.store.Agrees other.store id) →
      (computation.outcome other).1 =
          (computation.outcome state).1.map (Value.rename (ScopeId.move state.size other.size)) ∧
        (∃ lines, (computation.outcome state).2.output = state.output ++ lines ∧
          (computation.outcome other).2.output = other.output ++ lines) ∧
        ∀ id, state.store.Reaches roots id ∨ state.size ≤ id.index →
          (computation.outcome other).2.store.scope? (ScopeId.move state.size other.size id) =
            ((computation.outcome state).2.store.scope? id).map
              (Scope.rename (ScopeId.move state.size other.size))

/-! ## The frame -/

/-- The evaluations that see the scopes that can be reached, and those made later. -/
def Discipline.ofRoots (state : State) (roots : List ScopeId) : Discipline where
  base := state.size
  scopes id := state.store.Reaches roots id ∨ state.size ≤ id.index
  functions _ function :=
    state.store.Reaches roots function.closure ∨ state.size ≤ function.closure.index
  fits _ scope _ := state.store.Reaches roots scope ∨ state.size ≤ scope.index
  fresh enough := .inr enough
  functions_mono _ within := within
  fits_mono _ within := within
  closure within := within
  scope within := within
  part within _ := within
  declared _ within := within
  body enough _ _ := .inr enough

/-- There are no scopes that were not made yet. -/
theorem State.scope?_of_size_le {state : State} {id : ScopeId} (beyond : state.size ≤ id.index) :
    state.store.scope? id = none :=
  Store.scope?_eq_none_iff.2 (Nat.not_lt.2 beyond)

theorem Discipline.ofRoots_admits (state : State) (roots : List ScopeId) :
    (Discipline.ofRoots state roots).Admits state := by
  refine ⟨Nat.le_refl _, ?_, ?_⟩
  · rintro id parent (reached | beyond) found
    · exact .inl (.parent reached found)
    · rw [Store.parent?, State.scope?_of_size_le beyond] at found
      cases found
  · rintro id scope (reached | beyond) present entry bound function held
    · exact .inl (.captured reached present bound held)
    · rw [State.scope?_of_size_le beyond] at present
      cases present

/-- A change leaves every scope that is not visible as it was. -/
theorem Discipline.Change.frame {discipline : Discipline} {before after : State}
    (change : discipline.Change before after) (admits : discipline.Admits before) {id : ScopeId}
    (present : before.store.Has id) (hidden : ¬ discipline.scopes id) :
    after.store.scope? id = before.store.scope? id := by
  have elsewhere : ∀ owner name binding, discipline.scopes owner →
      (before.bind owner name binding).store.scope? id = before.store.scope? id := by
    intro owner name binding visible
    refine (Store.scope?_bind ..).trans (if_neg ?_)
    rintro rfl
    exact hidden visible
  cases change with
  | print line => rfl
  | declareVariable fits undeclared within => exact elsewhere _ _ _ (discipline.scope fits)
  | declareFunction text fits undeclared => exact elsewhere _ _ _ (discipline.scope fits)
  | bindParameter fresh undeclared within => exact elsewhere _ _ _ (discipline.fresh fresh)
  | assign fits named found within =>
      obtain ⟨member, _⟩ := Store.assignable_eq_ok found
      exact elsewhere _ _ _ (Store.mem_chain admits.parents (discipline.scope fits) member)
  | enclose within => exact Store.scope?_addEnclosed_of_has present _

theorem Discipline.frame_of_changes {discipline : Discipline} {before after : State}
    (changes : ReflTransGen discipline.Change before after) (admits : discipline.Admits before)
    {id : ScopeId} (present : before.store.Has id) (hidden : ¬ discipline.scopes id) :
    after.store.scope? id = before.store.scope? id := by
  induction changes with
  | refl => rfl
  | tail changes change inductionHypothesis =>
      have still := Nat.lt_of_lt_of_le present (grows_of_changes changes)
      exact (change.frame (admits_of_changes changes admits) still hidden).trans
        inductionHypothesis

/-- What is made out of a state by changes of what can be reached leaves all else as it was. -/
theorem Discipline.untouched_of_changes {roots : List ScopeId} {state after : State}
    (changes : ReflTransGen (Discipline.ofRoots state roots).Change state after) {id : ScopeId}
    (present : state.store.Has id) (unreached : ¬ state.store.Reaches roots id) :
    after.store.scope? id = state.store.scope? id := by
  refine Discipline.frame_of_changes changes (Discipline.ofRoots_admits state roots) present ?_
  rintro (reached | beyond)
  · exact unreached reached
  · exact absurd present (Nat.not_lt.2 beyond)

/-! ## Two runs -/

theorem Store.Agrees.has {left right : Store} {id : ScopeId} (agrees : left.Agrees right id) :
    left.Has id ∧ right.Has id := by
  obtain ⟨scope, inLeft, inRight⟩ := agrees
  constructor
  · refine Decidable.byContradiction fun absent => ?_
    cases (Store.scope?_eq_none_iff.2 absent).symm.trans inLeft
  · refine Decidable.byContradiction fun absent => ?_
    cases (Store.scope?_eq_none_iff.2 absent).symm.trans inRight

/-- Two states that agree on what can be reached: phrases correspond to themselves, and so do the
scopes that can be reached. -/
def Likeness.ofAgreement (state other : State) (roots : List ScopeId)
    (agree : ∀ id, state.store.Reaches roots id → state.store.Agrees other.store id) :
    Likeness where
  toMatching := .inOneText (· = ·) (· = ·) fun same => same ▸
    (Phrase.layer_self _ (fun _ _ => rfl) (fun _ _ => rfl) fun _ _ => rfl).mono
      (fun _ _ entries => entries.alike) (fun _ _ same => same) fun _ _ same => same
  old left right := left = right ∧ state.store.Reaches roots left
  leftSize := state.size
  rightSize := other.size
  leftOld both := (agree _ both.2).has.1
  rightOld both := both.1 ▸ (agree _ both.2).has.2
  oneToOne := by
    rintro left _ another _ ⟨rfl, _⟩ ⟨rfl, _⟩
    exact Iff.rfl
  leftOutput := state.output
  rightOutput := other.output
  leftTexts := state.store.texts
  rightTexts := other.store.texts

section

variable {state other : State} {roots : List ScopeId}
  {agree : ∀ id, state.store.Reaches roots id → state.store.Agrees other.store id}

theorem Likeness.ofAgreement_scopes {id : ScopeId} (reached : state.store.Reaches roots id) :
    (Likeness.ofAgreement state other roots agree).Scopes id id :=
  .inl ⟨rfl, reached⟩

theorem Likeness.ofAgreement_functions {function : Function}
    (reached : state.store.Reaches roots function.closure) :
    (Likeness.ofAgreement state other roots agree).Functions function function :=
  ⟨rfl, rfl, List.forall₂_same.2 fun _ _ => ⟨rfl, rfl⟩, ⟨rfl, rfl⟩,
    Likeness.ofAgreement_scopes reached⟩

/-- Values whose functions see scopes that can be reached correspond to themselves. -/
theorem Likeness.ofAgreement_values (value : Value)
    (reached : ∀ function ∈ value.functions, state.store.Reaches roots function.closure) :
    (Likeness.ofAgreement state other roots agree).Values value value :=
  Likeness.values_self value fun function member =>
    Likeness.ofAgreement_functions (reached function member)

/-- States that agree on what can be reached correspond. -/
theorem Likeness.ofAgreement_states :
    (Likeness.ofAgreement state other roots agree).States state other := by
  refine ⟨⟨0, rfl, rfl⟩, ⟨#[], by simp [ofAgreement], by simp [ofAgreement]⟩, ⟨rfl, rfl⟩, ?_⟩
  rintro left right (⟨rfl, reached⟩ | ⟨count, rfl, rfl⟩)
  · obtain ⟨scope, inLeft, inRight⟩ := agree left reached
    rw [inLeft, inRight]
    refine .some ⟨?_, rfl, List.forall₂_same.2 fun entry bound => ⟨rfl, ?_⟩, rfl⟩
    · cases around : scope.parent with
      | none => exact .none
      | some parent =>
          refine .some (ofAgreement_scopes (.parent reached ?_))
          rw [Store.parent?, inLeft]
          exact around
    · exact ofAgreement_values _ fun function held => .captured reached inLeft bound held
  · have inLeft : state.store.scope? ⟨state.size + count⟩ = none :=
      State.scope?_of_size_le (Nat.le_add_right _ _)
    have inRight : other.store.scope? ⟨other.size + count⟩ = none :=
      State.scope?_of_size_le (Nat.le_add_right _ _)
    change Option.Rel _ (state.store.scope? ⟨state.size + count⟩)
      (other.store.scope? ⟨other.size + count⟩)
    rw [inLeft, inRight]
    exact .none

/-! ## Corresponding things and renamings -/

theorem Likeness.ofAgreement_move {left right : ScopeId}
    (scopes : (Likeness.ofAgreement state other roots agree).Scopes left right) :
    right = left.move state.size other.size := by
  unfold ScopeId.move
  rcases scopes with ⟨rfl, reached⟩ | ⟨count, rfl, rfl⟩
  · have below : left.index < state.size := (agree _ reached).has.1
    rw [if_pos below]
  · have beyond : ¬ state.size + count < state.size := Nat.not_lt.2 (Nat.le_add_right _ _)
    refine Eq.trans (congrArg ScopeId.mk ?_) (if_neg beyond).symm
    change other.size + count = state.size + count - state.size + other.size
    omega

theorem Likeness.ofAgreement_rename {left right : Function}
    (functions : (Likeness.ofAgreement state other roots agree).Functions left right) :
    right = left.rename (ScopeId.move state.size other.size) := by
  obtain ⟨name, parameters, body, bodyId, closure⟩ := left
  obtain ⟨_, _, _, ⟨_, _⟩, _⟩ := right
  cases functions.name
  cases functions.parameters
  cases functions.place.1
  cases functions.place.2
  have bodies := functions.body.imp fun _ _ both => both.2
  rw [List.forall₂_eq_eq_eq] at bodies
  cases bodies
  cases ofAgreement_move functions.closure
  rfl

theorem Likeness.ofAgreement_renameValue {left right : Value}
    (values : (Likeness.ofAgreement state other roots agree).Values left right) :
    right = left.rename (ScopeId.move state.size other.size) := by
  have same : left.mapFunctions (Function.rename (ScopeId.move state.size other.size)) =
      right.mapFunctions id :=
    values.mapFunctions_eq fun functions => (ofAgreement_rename functions).symm
  rw [Value.mapFunctions_id] at same
  exact same.symm

theorem Likeness.ofAgreement_renameScope {left right : Scope}
    (contents : (Likeness.ofAgreement state other roots agree).Contents left right) :
    right = left.rename (ScopeId.move state.size other.size) := by
  have parents : right.parent = left.parent.map (ScopeId.move state.size other.size) := by
    have outer := contents.parent
    revert outer
    cases left.parent <;> cases right.parent <;> intro outer
    · rfl
    · cases outer
    · cases outer
    · cases outer with
      | some scopes => exact congrArg some (ofAgreement_move scopes)
  have values : left.values.entries.map (fun entry =>
      (entry.1, entry.2.mapFunctions (Function.rename (ScopeId.move state.size other.size)))) =
      right.values.entries.map fun entry => (entry.1, entry.2.mapFunctions id) :=
    contents.values_mapFunctions_eq fun functions => (ofAgreement_rename functions).symm
  simp only [Value.mapFunctions_id, List.map_id'] at values
  obtain ⟨_, _, ⟨_⟩, _⟩ := right
  cases contents.depth
  cases contents.constants
  cases parents
  cases values
  rfl

theorem Likeness.ofAgreement_faults {left right : Fault}
    (faults : (Likeness.ofAgreement state other roots agree).Faults left right) :
    left = right :=
  (faults.eq_of_span faults.span.symm).symm

theorem Likeness.ofAgreement_stops {left right : Stop}
    (stops : (Likeness.ofAgreement state other roots agree).Stops left right) : left = right := by
  cases stops with
  | tooDeep => rfl
  | fault faults => exact congrArg _ (ofAgreement_faults faults)

/-- In states that correspond in the end, the scopes that could be reached at the start and those
made since are the same up to their names. -/
theorem Likeness.ofAgreement_finally {stateAfter otherAfter : State}
    (states : (Likeness.ofAgreement state other roots agree).States stateAfter otherAfter)
    {id : ScopeId} (known : state.store.Reaches roots id ∨ state.size ≤ id.index) :
    otherAfter.store.scope? (id.move state.size other.size) =
      (stateAfter.store.scope? id).map (Scope.rename (ScopeId.move state.size other.size)) := by
  have scopes : (ofAgreement state other roots agree).Scopes id
      (id.move state.size other.size) := by
    rcases known with reached | beyond
    · have below : id.index < state.size := (agree _ reached).has.1
      rw [ScopeId.move, if_pos below]
      exact ofAgreement_scopes reached
    · rw [ScopeId.move, if_neg (Nat.not_lt.2 beyond)]
      refine .inr ⟨id.index - state.size, congrArg ScopeId.mk ?_, congrArg ScopeId.mk ?_⟩
      · change id.index = state.size + (id.index - state.size)
        omega
      · exact Nat.add_comm _ _
  have contents := states.contents _ _ scopes
  revert contents
  cases stateAfter.store.scope? id <;> cases otherAfter.store.scope? _ <;> intro contents
  · rfl
  · cases contents
  · cases contents
  · cases contents with
    | some same => exact congrArg some (ofAgreement_renameScope same)

theorem Likeness.unaware_of_similar {computation : Evaluation Value}
    (similar : (Likeness.ofAgreement state other roots agree).Similar
      (Likeness.ofAgreement state other roots agree).Values computation computation) :
    (computation.outcome other).1 =
        (computation.outcome state).1.map (Value.rename (ScopeId.move state.size other.size)) ∧
      (∃ lines, (computation.outcome state).2.output = state.output ++ lines ∧
        (computation.outcome other).2.output = other.output ++ lines) ∧
      ∀ id, state.store.Reaches roots id ∨ state.size ≤ id.index →
        (computation.outcome other).2.store.scope? (ScopeId.move state.size other.size id) =
          ((computation.outcome state).2.store.scope? id).map
            (Scope.rename (ScopeId.move state.size other.size)) := by
  have ends := similar state other ofAgreement_states
  rw [Evaluation.outcome_apply, Evaluation.outcome_apply]
  revert ends
  cases computation state <;> cases computation other <;> intro ends
  · cases ends with
    | ok values states =>
        exact ⟨congrArg Except.ok (ofAgreement_renameValue values), states.printed,
          fun id known => ofAgreement_finally states known⟩
  · cases ends
  · cases ends
  · cases ends with
    | error stops states =>
        exact ⟨congrArg (fun stop => Except.error (Failure.ofStop stop))
            (ofAgreement_stops stops).symm, states.printed,
          fun id known => ofAgreement_finally states known⟩

end

/-! ## Confinement -/

theorem Phrase.evaluate_confined (depth text : Nat) (phrase : Phrase) (scope : ScopeId) :
    Evaluation.Confined [scope]
      (phrase.evaluate ((Invoker.upTo Host.standard depth).within text) scope) := by
  refine ⟨?_, ?_⟩
  · intro state id present unreached
    have fits : (Discipline.ofRoots state [scope]).fits state.size scope phrase :=
      .inl (.root (List.mem_singleton.2 rfl))
    exact Discipline.untouched_of_changes
      (Discipline.evaluate_changes depth text (Discipline.ofRoots_admits state [scope]) fits)
      present unreached
  · intro state other agree
    have scopes : (Likeness.ofAgreement state other [scope] agree).Scopes scope scope :=
      Likeness.ofAgreement_scopes (.root (List.mem_singleton.2 rfl))
    exact Likeness.unaware_of_similar (phrase.evaluate_similar
      ((Invoker.trusts_upTo_upTo depth).within text text) scopes ⟨rfl, rfl⟩)

theorem Function.run_confined (depth : Nat) (function : Function) (arguments : List Value)
    (span : Span) :
    Evaluation.Confined (function.closure :: arguments.flatMap Value.closures)
      (function.run (Invoker.upTo Host.standard depth) arguments span) := by
  have captured : ∀ argument ∈ arguments, ∀ given ∈ argument.functions,
      given.closure ∈ function.closure :: arguments.flatMap Value.closures :=
    fun argument member given occurs => List.mem_cons_of_mem _
      (List.mem_flatMap.2 ⟨argument, member, List.mem_map_of_mem occurs⟩)
  refine ⟨?_, ?_⟩
  · intro state id present unreached
    -- Where the call comes from only matters for the place of a fault.
    let bounded := (Discipline.ofRoots state
      (function.closure :: arguments.flatMap Value.closures)).regime state
    let regime := bounded.unblamed
    have covers : regime.Covers Host.standard :=
      Regime.covers_standard fun line => Discipline.Change.print line
    have uses : ∀ depth, bounded.Uses (Invoker.upTo Host.standard depth) :=
      Discipline.uses_upTo state
    have trusts : regime.Trusts (Invoker.upTo Host.standard depth) := covers.trusts uses depth
    have calls : regime.Calls state function span := trivial
    have known : regime.Knows state (.function function) :=
      List.forall_mem_singleton.2 (.inl (.root List.mem_cons_self))
    have given : ∀ argument ∈ arguments, regime.Knows state argument :=
      fun argument member inside occurs => .inl (.root (captured argument member inside occurs))
    have follows := Function.run_follows trusts calls known given
    exact Discipline.untouched_of_changes
      (follows state .refl ⟨Discipline.ofRoots_admits state _, .refl⟩).grown present unreached
  · intro state other agree
    have given : List.Forall₂ (Likeness.ofAgreement state other _ agree).Values arguments
        arguments :=
      List.forall₂_same.2 fun argument member =>
        Likeness.ofAgreement_values argument fun inside occurs =>
          .root (captured argument member inside occurs)
    exact Likeness.unaware_of_similar
      (Function.run_similar (Invoker.trusts_upTo_upTo depth)
        (Likeness.ofAgreement_functions (.root List.mem_cons_self)) given rfl)

end NanoScript
