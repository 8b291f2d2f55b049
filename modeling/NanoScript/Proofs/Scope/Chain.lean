import NanoScript.Scope.Lemmas

/-!
Contract: what is found along the chain of a scope.

Owns:
- the scopes of a chain: whatever holds of a scope and passes on to the scope around it holds of
  all of them;
- what a look-up and an assignment find there, and the only ways in which they fail.
-/

namespace NanoScript.Store

theorem mem_chainWithin {store : Store} {property : ScopeId → Prop}
    (outwards : ∀ id parent, property id → store.parent? id = some parent → property parent)
    (steps : Nat) {id owner : ScopeId} (start : property id)
    (member : owner ∈ store.chainWithin steps id) : property owner := by
  induction steps generalizing id with
  | zero =>
      rw [List.mem_singleton.1 member]
      exact start
  | succ steps inductionHypothesis =>
      unfold chainWithin at member
      split at member
      · rw [List.mem_singleton.1 member]
        exact start
      · next parent found =>
          rcases List.mem_cons.1 member with here | outside
          · rw [here]
            exact start
          · exact inductionHypothesis (outwards id parent start found) outside

/-- Whatever holds of a scope and passes on to the scope around it holds along the chain. -/
theorem mem_chain {store : Store} {property : ScopeId → Prop} {id owner : ScopeId}
    (outwards : ∀ id parent, property id → store.parent? id = some parent → property parent)
    (start : property id) (member : owner ∈ store.chain id) : property owner :=
  mem_chainWithin outwards _ start member

/-! ## Looking up -/

theorem lookup_eq_ok {store : Store} {id : ScopeId} {name : String} {value : Value}
    (found : store.lookup id name = .ok value) :
    ∃ owner ∈ store.chain id, ∃ binding,
      store.binding? owner name = some binding ∧ binding.value = value := by
  unfold lookup at found
  split at found
  · next binding atOwner =>
      cases found
      obtain ⟨owner, member, bound⟩ := List.exists_of_findSome?_eq_some atOwner
      exact ⟨owner, member, binding, bound, rfl⟩
  · cases found

theorem lookup_eq_error {store : Store} {id : ScopeId} {name : String} {error : ScopeError}
    (fails : store.lookup id name = .error error) : error = .unresolved name := by
  unfold lookup at fails
  split at fails
  · cases fails
  · cases fails
    rfl

/-! ## Assigning -/

theorem resolve_eq_ok {store : Store} {id owner : ScopeId} {name : String}
    (found : store.resolve id name = .ok owner) :
    owner ∈ store.chain id ∧ store.declares owner name = true := by
  unfold resolve at found
  split at found
  · next scope atOwner =>
      cases found
      have declared := List.find?_some atOwner
      exact ⟨List.mem_of_find?_eq_some atOwner, declared⟩
  · cases found

theorem resolve_eq_error {store : Store} {id : ScopeId} {name : String} {error : ScopeError}
    (fails : store.resolve id name = .error error) : error = .unresolved name := by
  unfold resolve at fails
  split at fails
  · cases fails
  · cases fails
    rfl

/-- A name is assigned in a scope of the chain that declares it, and not as a constant. -/
theorem assignable_eq_ok {store : Store} {id owner : ScopeId} {name : String}
    (found : store.assignable id name = .ok owner) :
    owner ∈ store.chain id ∧ ∃ binding,
      store.binding? owner name = some binding ∧ binding.constant = false := by
  unfold assignable at found
  split at found
  · cases found
  · next scope resolved =>
      split at found
      · cases found
      · next notConstant =>
          cases found
          obtain ⟨member, declared⟩ := resolve_eq_ok resolved
          obtain ⟨binding, bound⟩ := Option.isSome_iff_exists.1 declared
          refine ⟨member, binding, bound, ?_⟩
          rw [constant_of_binding? bound]
          exact Bool.eq_false_iff.2 notConstant

theorem assignable_eq_error {store : Store} {id : ScopeId} {name : String} {error : ScopeError}
    (fails : store.assignable id name = .error error) :
    error = .unresolved name ∨ error = .constantReassigned name := by
  unfold assignable at fails
  split at fails
  · next unresolved =>
      cases fails
      exact .inl (resolve_eq_error unresolved)
  · split at fails
    · cases fails
      exact .inr rfl
    · cases fails

/-! ## Scopes that are there -/

/-- A store has every scope that binds a name. -/
theorem has_of_binding? {store : Store} {id : ScopeId} {name : String} {binding : Binding}
    (bound : store.binding? id name = some binding) : store.Has id := by
  refine Decidable.byContradiction fun absent => ?_
  rw [binding?, scope?_eq_none_iff.2 absent] at bound
  cases bound

/-- Binding a name leaves every other name, and that name in every other scope, as it was. -/
theorem binding?_bind_of_elsewhere {store : Store} {owner id : ScopeId} {name key : String}
    {binding : Binding} (elsewhere : ¬ (id = owner ∧ key = name)) :
    (store.bind owner name binding).binding? id key = store.binding? id key := by
  by_cases present : store.Has owner
  · rw [binding?_bind present, if_neg elsewhere]
  · by_cases same : id = owner
    · have absent : ¬ (store.bind owner name binding).Has id := fun has =>
        present (same ▸ has_bind.1 has)
      rw [binding?, binding?, scope?_eq_none_iff.2 absent, scope?_eq_none_iff.2 (same ▸ present)]
    · rw [binding?, scope?_bind, if_neg same, ← binding?]

theorem isConstant_bind_of_elsewhere {store : Store} {owner id : ScopeId} {name key : String}
    {binding : Binding} (elsewhere : ¬ (id = owner ∧ key = name)) :
    (store.bind owner name binding).isConstant id key = store.isConstant id key := by
  by_cases present : store.Has owner
  · rw [isConstant_bind present, decide_eq_false elsewhere, Bool.false_and, Bool.false_or]
  · by_cases same : id = owner
    · have absent : ¬ (store.bind owner name binding).Has id := fun has =>
        present (same ▸ has_bind.1 has)
      rw [isConstant, isConstant, scope?_eq_none_iff.2 absent,
        scope?_eq_none_iff.2 (same ▸ present)]
    · rw [isConstant, scope?_bind, if_neg same, ← isConstant]

/-- A name that is declared stays declared, whatever is bound. -/
theorem declares_bind_of_declares {store : Store} {owner id : ScopeId} {name key : String}
    {binding : Binding} (declared : store.declares id key = true) :
    (store.bind owner name binding).declares id key = true := by
  by_cases here : id = owner ∧ key = name
  · obtain ⟨rfl, rfl⟩ := here
    obtain ⟨older, bound⟩ := Option.isSome_iff_exists.1 declared
    rw [declares, binding?_bind (has_of_binding? bound), if_pos ⟨rfl, rfl⟩]
    rfl
  · rw [declares, binding?_bind_of_elsewhere here]
    exact declared

theorem declares_bind_self {store : Store} {id : ScopeId} {name : String} {binding : Binding}
    (present : store.Has id) : (store.bind id name binding).declares id name = true := by
  rw [declares, binding?_bind present, if_pos ⟨rfl, rfl⟩]
  rfl

theorem binding?_addEnclosed_nextId (store : Store) (parent : ScopeId) (name : String) :
    (store.addEnclosed parent).2.binding? store.nextId name = none := by
  rw [binding?, scope?_addEnclosed_nextId]
  rfl

theorem isConstant_addEnclosed_nextId (store : Store) (parent : ScopeId) (name : String) :
    (store.addEnclosed parent).2.isConstant store.nextId name = false := by
  rw [isConstant, scope?_addEnclosed_nextId]
  rfl

end NanoScript.Store
