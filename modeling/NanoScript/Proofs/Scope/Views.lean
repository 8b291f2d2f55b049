import NanoScript.Proofs.Evaluation.Primitive
import NanoScript.Proofs.Scope.WellFormed
import NanoScript.Proofs.Table.Sorted

/-!
Contract: what can be seen from a scope, and from which scopes a change can be seen.

Owns:
- the walks that resolve, read, assign and list names: each looks at one scope and goes on with the
  scope around it;
- the agreement of the walks: they find a name in the same scope, or all of them fail to;
- which scopes see another value after an assignment and after a declaration;
- operations that fail leave the state as it was.

The four walks meet only in `resolve`.  That two of them agree is shown by an induction outwards, in
which each takes its own step.
-/

namespace NanoScript

namespace Store

variable {store later : Store} {id owner : ScopeId} {name : String}

/-! ## One step of each walk -/

/-- Each walk stops in the scope that declares the name, and goes on with the scope around it
otherwise. -/
structure Walks (store : Store) (id : ScopeId) (name : String) : Prop where
  lookup : store.lookup id name =
    match store.binding? id name with
    | some binding => .ok binding.value
    | none =>
        match store.parent? id with
        | some parent => store.lookup parent name
        | none => .error (.unresolved name)
  resolve : store.resolve id name =
    if store.declares id name then .ok id
    else
      match store.parent? id with
      | some parent => store.resolve parent name
      | none => .error (.unresolved name)
  assign : ∀ value, store.assign id name value =
    match store.binding? id name with
    | some binding =>
        if binding.constant then .error (.constantReassigned name)
        else .ok (store.bind id name ⟨value, false⟩)
    | none =>
        match store.parent? id with
        | some parent => store.assign parent name value
        | none => .error (.unresolved name)
  visible : name ∈ store.visibleNames id ↔
    store.declares id name = true ∨
      ∃ parent, store.parent? id = some parent ∧ name ∈ store.visibleNames parent

/-- A store has every scope that declares a name. -/
theorem has_of_declares (declared : store.declares id name = true) : store.Has id := by
  obtain ⟨binding, bound⟩ := Option.isSome_iff_exists.1 declared
  exact has_of_binding? bound

theorem mem_declaredNames : name ∈ store.declaredNames id ↔ store.declares id name = true := by
  unfold declaredNames declares binding?
  cases store.scope? id with
  | none => simp
  | some scope => simp [Table.mem_sortedNames, Table.mem_names_iff, Scope.binding?]

theorem mem_visibleNames :
    name ∈ store.visibleNames id ↔ ∃ owner ∈ store.chain id, store.declares owner name = true := by
  unfold visibleNames
  rw [Table.mem_sortedNames, List.mem_flatMap]
  simp [mem_declaredNames]

theorem WellFormed.lookup_eq (wellFormed : store.WellFormed) (id : ScopeId) (name : String) :
    store.lookup id name =
      match store.binding? id name with
      | some binding => .ok binding.value
      | none =>
          match store.parent? id with
          | some parent => store.lookup parent name
          | none => .error (.unresolved name) := by
  unfold lookup
  rw [wellFormed.chain_eq id]
  cases bound : store.binding? id name <;> cases found : store.parent? id <;> simp [bound]

theorem WellFormed.resolve_eq (wellFormed : store.WellFormed) (id : ScopeId) (name : String) :
    store.resolve id name =
      if store.declares id name then .ok id
      else
        match store.parent? id with
        | some parent => store.resolve parent name
        | none => .error (.unresolved name) := by
  unfold resolve
  rw [wellFormed.chain_eq id]
  cases declared : store.declares id name <;> cases found : store.parent? id <;> simp [declared]

theorem WellFormed.assign_eq (wellFormed : store.WellFormed) (id : ScopeId) (name : String)
    (value : Value) :
    store.assign id name value =
      match store.binding? id name with
      | some binding =>
          if binding.constant then .error (.constantReassigned name)
          else .ok (store.bind id name ⟨value, false⟩)
      | none =>
          match store.parent? id with
          | some parent => store.assign parent name value
          | none => .error (.unresolved name) := by
  unfold assign assignable
  rw [wellFormed.resolve_eq id name]
  cases bound : store.binding? id name with
  | none =>
      have undeclared : store.declares id name = false := by simp [declares, bound]
      cases store.parent? id <;> simp [undeclared]
  | some binding =>
      have declared : store.declares id name = true := by simp [declares, bound]
      have sameMark := constant_of_binding? bound
      cases constant : binding.constant <;> rw [constant] at sameMark <;>
        simp [declared, ← sameMark, constant]

theorem WellFormed.mem_visibleNames_iff (wellFormed : store.WellFormed) :
    name ∈ store.visibleNames id ↔
      store.declares id name = true ∨
        ∃ parent, store.parent? id = some parent ∧ name ∈ store.visibleNames parent := by
  rw [mem_visibleNames, wellFormed.chain_eq id]
  cases found : store.parent? id with
  | none => simp
  | some parent => simp [mem_visibleNames]

theorem WellFormed.walks (wellFormed : store.WellFormed) (id : ScopeId) (name : String) :
    store.Walks id name :=
  ⟨wellFormed.lookup_eq id name, wellFormed.resolve_eq id name, wellFormed.assign_eq id name,
    wellFormed.mem_visibleNames_iff⟩

/-! ## The walks agree -/

/-- All ways to use a name from a scope find it in the nearest scope outwards that declares it, or
fail alike because there is none. -/
structure AnswersAlike (store : Store) (id : ScopeId) (name : String) : Prop where
  nearest : ∀ owner, store.resolve id name = .ok owner ↔
    ∃ steps, store.outwards steps id = some owner ∧ store.declares owner name = true ∧
      ∀ fewer < steps, ∀ inner, store.outwards fewer id = some inner →
        store.declares inner name = false
  read : ∀ value, store.lookup id name = .ok value ↔
    ∃ owner binding, store.resolve id name = .ok owner ∧
      store.binding? owner name = some binding ∧ binding.value = value
  readable : (∃ value, store.lookup id name = .ok value) ↔ name ∈ store.visibleNames id
  resolvable : (∃ owner, store.resolve id name = .ok owner) ↔ name ∈ store.visibleNames id
  missing : name ∉ store.visibleNames id →
    store.lookup id name = .error (.unresolved name) ∧
      store.resolve id name = .error (.unresolved name) ∧
        ∀ value, store.assign id name value = .error (.unresolved name)

theorem WellFormed.resolvable (wellFormed : store.WellFormed) (id : ScopeId) (name : String) :
    (∃ owner, store.resolve id name = .ok owner) ↔ name ∈ store.visibleNames id := by
  induction id using wellFormed.induction with
  | inwards id inductionHypothesis =>
      rw [wellFormed.resolve_eq id, wellFormed.mem_visibleNames_iff]
      cases declared : store.declares id name with
      | true => simp
      | false =>
          cases found : store.parent? id with
          | none => simp
          | some parent => simpa using inductionHypothesis parent found

/-- A look-up gives what the scope that the name resolves to binds it to. -/
theorem WellFormed.lookup_of_resolve (wellFormed : store.WellFormed)
    (resolved : store.resolve id name = .ok owner) :
    ∃ binding, store.binding? owner name = some binding ∧
      store.lookup id name = .ok binding.value := by
  induction id using wellFormed.induction with
  | inwards id inductionHypothesis =>
      rw [wellFormed.resolve_eq id] at resolved
      rw [wellFormed.lookup_eq id]
      cases bound : store.binding? id name with
      | some binding =>
          have declared : store.declares id name = true := by simp [declares, bound]
          rw [if_pos declared] at resolved
          cases resolved
          exact ⟨binding, bound, rfl⟩
      | none =>
          have undeclared : ¬ store.declares id name = true := by simp [declares, bound]
          rw [if_neg undeclared] at resolved
          cases found : store.parent? id with
          | none =>
              rw [found] at resolved
              cases resolved
          | some parent =>
              rw [found] at resolved
              exact inductionHypothesis parent found resolved

theorem WellFormed.lookup_of_unresolved (wellFormed : store.WellFormed) {error : ScopeError}
    (unresolved : store.resolve id name = .error error) :
    store.lookup id name = .error (.unresolved name) := by
  induction id using wellFormed.induction with
  | inwards id inductionHypothesis =>
      rw [wellFormed.resolve_eq id] at unresolved
      rw [wellFormed.lookup_eq id]
      split at unresolved
      · cases unresolved
      · next undeclared =>
          have unbound : store.binding? id name = none := by simpa [declares] using undeclared
          rw [unbound]
          cases found : store.parent? id with
          | none => rfl
          | some parent =>
              rw [found] at unresolved
              exact inductionHypothesis parent found unresolved

/-- A name resolves to the first scope outwards that declares it. -/
theorem WellFormed.resolve_eq_ok_iff (wellFormed : store.WellFormed) :
    store.resolve id name = .ok owner ↔
      ∃ steps, store.outwards steps id = some owner ∧ store.declares owner name = true ∧
        ∀ fewer < steps, ∀ inner, store.outwards fewer id = some inner →
          store.declares inner name = false := by
  induction id using wellFormed.induction with
  | inwards id inductionHypothesis =>
      rw [wellFormed.resolve_eq id]
      cases declared : store.declares id name with
      | true =>
          rw [if_pos rfl]
          constructor
          · intro same
            cases same
            exact ⟨0, rfl, declared, fun fewer below => absurd below (Nat.not_lt_zero _)⟩
          · rintro ⟨steps, reached, _, undeclaredBefore⟩
            cases steps with
            | zero => exact congrArg Except.ok (Option.some.inj reached)
            | succ steps =>
                have undeclared := undeclaredBefore 0 (Nat.succ_pos _) id rfl
                rw [declared] at undeclared
                cases undeclared
      | false =>
          rw [if_neg Bool.false_ne_true]
          have notHere : ∀ {owner}, store.declares owner name = true →
              store.outwards 0 id ≠ some owner := by
            rintro owner declaredThere same
            cases same
            rw [declared] at declaredThere
            cases declaredThere
          cases found : store.parent? id with
          | none =>
              refine ⟨nofun, ?_⟩
              rintro ⟨steps, reached, declaredThere, _⟩
              cases steps with
              | zero => exact absurd reached (notHere declaredThere)
              | succ steps =>
                  rw [outwards, found] at reached
                  cases reached
          | some parent =>
              refine (inductionHypothesis parent found).trans ?_
              constructor
              · rintro ⟨steps, reached, declaredThere, undeclaredBefore⟩
                refine ⟨steps + 1, (outwards_succ found steps).trans reached, declaredThere, ?_⟩
                intro fewer below inner met
                cases fewer with
                | zero =>
                    cases met
                    exact declared
                | succ fewer =>
                    rw [outwards_succ found] at met
                    exact undeclaredBefore fewer (Nat.lt_of_succ_lt_succ below) inner met
              · rintro ⟨steps, reached, declaredThere, undeclaredBefore⟩
                cases steps with
                | zero => exact absurd reached (notHere declaredThere)
                | succ steps =>
                    rw [outwards_succ found] at reached
                    refine ⟨steps, reached, declaredThere, fun fewer below inner met => ?_⟩
                    exact undeclaredBefore (fewer + 1) (Nat.succ_lt_succ below) inner
                      ((outwards_succ found fewer).trans met)

theorem WellFormed.answersAlike (wellFormed : store.WellFormed) (id : ScopeId) (name : String) :
    store.AnswersAlike id name := by
  have resolvable := wellFormed.resolvable id name
  refine ⟨fun _ => wellFormed.resolve_eq_ok_iff, fun value => ?_, ?_, resolvable, ?_⟩
  · constructor
    · intro reads
      cases resolved : store.resolve id name with
      | error error =>
          rw [wellFormed.lookup_of_unresolved resolved] at reads
          cases reads
      | ok owner =>
          obtain ⟨binding, bound, found⟩ := wellFormed.lookup_of_resolve resolved
          cases found.symm.trans reads
          exact ⟨owner, binding, rfl, bound, rfl⟩
    · rintro ⟨owner, binding, resolved, bound, rfl⟩
      obtain ⟨other, alsoBound, found⟩ := wellFormed.lookup_of_resolve resolved
      cases bound.symm.trans alsoBound
      exact found
  · rw [← resolvable]
    constructor
    · rintro ⟨value, reads⟩
      cases resolved : store.resolve id name with
      | error error =>
          rw [wellFormed.lookup_of_unresolved resolved] at reads
          cases reads
      | ok owner => exact ⟨owner, rfl⟩
    · rintro ⟨owner, resolved⟩
      obtain ⟨binding, _, found⟩ := wellFormed.lookup_of_resolve resolved
      exact ⟨binding.value, found⟩
  · intro invisible
    cases resolved : store.resolve id name with
    | ok owner => exact absurd (resolvable.1 ⟨owner, resolved⟩) invisible
    | error error =>
        cases resolve_eq_error resolved
        refine ⟨wellFormed.lookup_of_unresolved resolved, rfl, fun value => ?_⟩
        rw [assign, assignable, resolved]

/-! ## Who sees a change -/

/-- From some scopes a name is read as a value now, and all else is read as it was before. -/
def SeenFrom (sees : ScopeId → Prop) (before after : Store) (name : String) (value : Value) :
    Prop :=
  ∀ other key,
    (key = name ∧ sees other → after.lookup other key = .ok value) ∧
      (¬ (key = name ∧ sees other) → after.lookup other key = before.lookup other key)

/-- What a scope binds a name to is seen from the scopes from which the name resolves to that
scope. -/
theorem WellFormed.seenFrom_bind (wellFormed : store.WellFormed) (present : store.Has owner)
    (name : String) (binding : Binding) :
    SeenFrom (fun other => (store.bind owner name binding).resolve other name = .ok owner) store
      (store.bind owner name binding) name binding.value := by
  have laterWellFormed : (store.bind owner name binding).WellFormed := wellFormed.bind
  intro other key
  beta_reduce
  induction other using wellFormed.induction with
  | inwards other inductionHypothesis =>
      rw [laterWellFormed.lookup_eq other, wellFormed.lookup_eq other,
        laterWellFormed.resolve_eq other, declares, binding?_bind present, binding?_bind present,
        parent?_bind]
      by_cases named : key = name
      · subst named
        by_cases here : other = owner
        · subst here
          simp
        · cases bound : store.binding? other key with
          | some older => simp [here]
          | none =>
              cases found : store.parent? other with
              | none => simp [here]
              | some parent => simpa [here] using inductionHypothesis parent found
      · cases bound : store.binding? other key with
        | some older => simp [named]
        | none =>
            cases found : store.parent? other with
            | none => simp [named]
            | some parent => simpa [named] using inductionHypothesis parent found

/-- Binding a name that a scope declares already changes nothing for the scopes that names resolve
to. -/
theorem resolve_bind_of_declares (declared : store.declares owner name = true)
    (binding : Binding) (other : ScopeId) (key : String) :
    (store.bind owner name binding).resolve other key = store.resolve other key := by
  have sameDeclared : ∀ scope, (store.bind owner name binding).declares scope key =
      store.declares scope key := by
    intro scope
    rw [declares, binding?_bind (has_of_declares declared)]
    by_cases here : scope = owner ∧ key = name
    · obtain ⟨rfl, rfl⟩ := here
      rw [if_pos ⟨rfl, rfl⟩, declared]
      rfl
    · rw [if_neg here, declares]
  have sameWithin : ∀ steps scope, (store.bind owner name binding).chainWithin steps scope =
      store.chainWithin steps scope := by
    intro steps
    induction steps with
    | zero => exact fun _ => rfl
    | succ steps inductionHypothesis =>
        intro scope
        rw [chainWithin, chainWithin, parent?_bind]
        cases store.parent? scope with
        | none => rfl
        | some parent => exact congrArg (scope :: ·) (inductionHypothesis parent)
  rw [resolve, resolve, chain, chain, depth_bind, sameWithin]
  simp only [sameDeclared]

/-- What an assignment does: it succeeds just if the name resolves to a scope that does not hold it
constant, and the new value is seen from the scopes from which the name resolves to that scope. -/
structure AssignsWhereFound (store : Store) (id : ScopeId) (name : String) (value : Value) :
    Prop where
  succeeds : (∃ later, store.assign id name value = .ok later) ↔
    ∃ owner, store.resolve id name = .ok owner ∧ store.isConstant owner name = false
  refused : ∀ owner, store.resolve id name = .ok owner → store.isConstant owner name = true →
    store.assign id name value = .error (.constantReassigned name)
  seen : ∀ later owner, store.assign id name value = .ok later →
    store.resolve id name = .ok owner →
      SeenFrom (fun other => store.resolve other name = .ok owner) store later name value
  kept : ∀ later, store.assign id name value = .ok later → ∀ other,
    (later.Has other ↔ store.Has other) ∧ later.parent? other = store.parent? other ∧
      ∀ key, later.declares other key = store.declares other key ∧
        later.isConstant other key = store.isConstant other key

theorem WellFormed.assignsWhereFound (wellFormed : store.WellFormed) (id : ScopeId)
    (name : String) (value : Value) : store.AssignsWhereFound id name value := by
  have onlyWay : ∀ later, store.assign id name value = .ok later →
      ∃ owner, store.resolve id name = .ok owner ∧ store.isConstant owner name = false ∧
        store.declares owner name = true ∧ later = store.bind owner name ⟨value, false⟩ := by
    intro later assigned
    unfold assign assignable at assigned
    cases resolved : store.resolve id name with
    | error error =>
        rw [resolved] at assigned
        cases assigned
    | ok owner =>
        rw [resolved] at assigned
        cases constant : store.isConstant owner name with
        | true => simp [constant] at assigned
        | false =>
            simp only [constant, Bool.false_eq_true, if_false, Except.ok.injEq] at assigned
            exact ⟨owner, rfl, constant, (resolve_eq_ok resolved).2, assigned.symm⟩
  refine ⟨⟨?_, ?_⟩, ?_, ?_, ?_⟩
  · rintro ⟨later, assigned⟩
    obtain ⟨owner, resolved, notConstant, _⟩ := onlyWay later assigned
    exact ⟨owner, resolved, notConstant⟩
  · rintro ⟨owner, resolved, notConstant⟩
    refine ⟨store.bind owner name ⟨value, false⟩, ?_⟩
    simp [assign, assignable, resolved, notConstant]
  · intro owner resolved constant
    simp [assign, assignable, resolved, constant]
  · intro later owner assigned resolved
    obtain ⟨found, alsoResolved, _, declared, rfl⟩ := onlyWay later assigned
    cases resolved.symm.trans alsoResolved
    have present := has_of_declares declared
    have seen := wellFormed.seenFrom_bind present name ⟨value, false⟩
    simpa only [resolve_bind_of_declares declared] using seen
  · intro later assigned other
    obtain ⟨owner, _, notConstant, declared, rfl⟩ := onlyWay later assigned
    have present := has_of_declares declared
    refine ⟨has_bind, parent?_bind .., fun key => ⟨?_, ?_⟩⟩
    · by_cases here : other = owner ∧ key = name
      · obtain ⟨rfl, rfl⟩ := here
        rw [declares_bind_self present, declared]
      · rw [declares, binding?_bind_of_elsewhere here, declares]
    · rw [isConstant_bind present, Bool.and_false, Bool.false_or]

/-- What a declaration does: it succeeds just if the scope itself does not declare the name, and the
value is seen from the scopes from which the name resolves to this scope now. -/
structure DeclaresHere (store : Store) (id : ScopeId) (name : String) (value : Value)
    (constant : Bool) : Prop where
  succeeds : (∃ later, store.declare id name value constant = .ok later) ↔
    store.declares id name = false
  refused : store.declares id name = true →
    store.declare id name value constant = .error (.alreadyDeclared name)
  seen : ∀ later, store.declare id name value constant = .ok later →
    SeenFrom (fun other => later.resolve other name = .ok id) store later name value
  kept : ∀ later, store.declare id name value constant = .ok later → ∀ other,
    (later.Has other ↔ store.Has other) ∧ later.parent? other = store.parent? other ∧
      ∀ key, later.binding? other key =
        if other = id ∧ key = name then some ⟨value, constant⟩ else store.binding? other key

theorem WellFormed.declaresHere (wellFormed : store.WellFormed) (present : store.Has id)
    (name : String) (value : Value) (constant : Bool) :
    store.DeclaresHere id name value constant := by
  have onlyWay : ∀ later, store.declare id name value constant = .ok later →
      store.declares id name = false ∧ later = store.bind id name ⟨value, constant⟩ := by
    intro later declaredNow
    unfold declare declarable at declaredNow
    cases declared : store.declares id name with
    | true => simp [declared] at declaredNow
    | false =>
        simp only [declared, Bool.false_eq_true, if_false, Except.ok.injEq] at declaredNow
        exact ⟨rfl, declaredNow.symm⟩
  refine ⟨⟨?_, ?_⟩, ?_, ?_, ?_⟩
  · rintro ⟨later, declaredNow⟩
    exact (onlyWay later declaredNow).1
  · intro undeclared
    exact ⟨store.bind id name ⟨value, constant⟩, by simp [declare, declarable, undeclared]⟩
  · intro declared
    simp [declare, declarable, declared]
  · intro later declaredNow
    obtain ⟨_, rfl⟩ := onlyWay later declaredNow
    exact wellFormed.seenFrom_bind present name ⟨value, constant⟩
  · intro later declaredNow other
    obtain ⟨undeclared, rfl⟩ := onlyWay later declaredNow
    refine ⟨has_bind, parent?_bind .., fun key => ?_⟩
    rw [binding?_bind present, wellFormed.isConstant_of_undeclared undeclared, Bool.or_false]

end Store

/-! ## Operations that fail -/

/-- Where a computation fails, it has changed nothing. -/
def Evaluation.FailsUnchanged {α : Type} (computation : Evaluation α) : Prop :=
  ∀ state failure later, computation.outcome state = (.error failure, later) → later = state

namespace Evaluation

theorem lookup_failsUnchanged (scope : ScopeId) (name : String) (span : Span) :
    (lookup scope name span).FailsUnchanged := by
  intro state failure later fails
  rw [outcome_apply, lookup_apply] at fails
  cases found : state.store.lookup scope name <;> rw [found] at fails <;> cases fails
  rfl

theorem assign_failsUnchanged (scope : ScopeId) (name : String) (value : Value) (span : Span) :
    (assign scope name value span).FailsUnchanged := by
  intro state failure later fails
  rw [outcome_apply, assign_apply] at fails
  cases found : state.store.assignable scope name <;> rw [found] at fails <;> cases fails
  rfl

theorem declare_failsUnchanged (scope : ScopeId) (name : String) (value : Value)
    (constant : Bool) (span : Span) :
    (declare scope name value constant span).FailsUnchanged := by
  intro state failure later fails
  rw [outcome_apply, declare_apply] at fails
  cases declared : state.store.declares scope name <;> rw [declared] at fails <;> cases fails
  rfl

end Evaluation

/-- From every scope of a well-formed store, the ways to use a name agree on where it is declared;
an assignment is seen exactly from where the name resolves to the same scope, and a declaration
exactly from where it resolves to this scope now; and what fails changes nothing. -/
theorem Store.WellFormed.views_agree {store : Store} (wellFormed : store.WellFormed) {id : ScopeId}
    (present : store.Has id) (name : String) :
    store.Walks id name ∧ store.AnswersAlike id name ∧
      (∀ value, store.AssignsWhereFound id name value) ∧
      (∀ value constant, store.DeclaresHere id name value constant) ∧
      ∀ span, (Evaluation.lookup id name span).FailsUnchanged ∧
        (∀ value, (Evaluation.assign id name value span).FailsUnchanged) ∧
        ∀ value constant, (Evaluation.declare id name value constant span).FailsUnchanged := by
  refine ⟨wellFormed.walks id name, wellFormed.answersAlike id name,
    wellFormed.assignsWhereFound id name, wellFormed.declaresHere present name, fun span => ?_⟩
  exact ⟨Evaluation.lookup_failsUnchanged id name span,
    fun value => Evaluation.assign_failsUnchanged id name value span,
    fun value constant => Evaluation.declare_failsUnchanged id name value constant span⟩

/-- The global scope, inside it one that declares `true` as a variable, and inside that one an empty
scope. -/
def Store.shadowing : Store :=
  (((State.initial.2.store.addEnclosed State.initial.1).2.bind ⟨1⟩ "true" ⟨.null, false⟩).addEnclosed
    ⟨1⟩).2

/-- An assignment to the variable `true` is seen in the scope that declares it, and not in the
global one. -/
theorem Store.shadowing_assignment_seen_inside :
    Store.shadowing.WellFormed ∧ Store.shadowing.Has ⟨2⟩ ∧
      ∃ later, Store.shadowing.assign ⟨2⟩ "true" (.number .zero) = .ok later ∧
        later.lookup ⟨1⟩ "true" = .ok (.number .zero) ∧
        later.lookup ⟨0⟩ "true" = .ok (.boolean true) := by
  have global : State.initial.2.store.WellFormed := Store.wellFormed_empty.addGlobal
  have wellFormed : Store.shadowing.WellFormed :=
    (global.addEnclosed (by decide)).bind.addEnclosed (by decide)
  have present : Store.shadowing.Has ⟨2⟩ := by decide
  obtain ⟨_, _, assigns, _⟩ := wellFormed.views_agree present "true"
  have found : Store.shadowing.resolve ⟨2⟩ "true" = .ok ⟨1⟩ := rfl
  obtain ⟨later, assigned⟩ := (assigns (.number .zero)).succeeds.2 ⟨⟨1⟩, found, rfl⟩
  have seen := (assigns (.number .zero)).seen later ⟨1⟩ assigned found
  refine ⟨wellFormed, present, later, assigned, (seen ⟨1⟩ "true").1 ⟨rfl, rfl⟩, ?_⟩
  exact (seen ⟨0⟩ "true").2 fun both => nomatch both.2

end NanoScript
