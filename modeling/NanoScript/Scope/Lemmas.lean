import NanoScript.Scope.Basic

/-!
Contract: what the operations on a store do to what can be seen of it.

Owns one equation for each operation and each view: binding a name changes that name in that scope
and nothing else, and making a scope leaves every older scope as it was.

A name is a constant in a scope once it was bound there as one, so that a name which was among the
constants before is one after every binding.
-/

namespace NanoScript

namespace Scope

@[simp] theorem binding?_bind (scope : Scope) (name key : String) (binding : Binding) :
    (scope.bind name binding).binding? key =
      if key = name then
        some ⟨binding.value, binding.constant || scope.constants.contains name⟩
      else scope.binding? key := by
  unfold binding? bind
  by_cases same : key = name
  · subst same
    cases binding.constant <;> simp
  · cases binding.constant <;> simp [same]

@[simp] theorem contains_constants_bind (scope : Scope) (name key : String) (binding : Binding) :
    (scope.bind name binding).constants.contains key =
      (decide (key = name) && binding.constant || scope.constants.contains key) := by
  unfold bind
  cases binding.constant <;> simp

end Scope

namespace Store

variable {store : Store} {id other : ScopeId}

/-- A store has the scopes whose numbers lie below its size. -/
def Has (store : Store) (id : ScopeId) : Prop :=
  id.index < store.scopes.size

instance (store : Store) (id : ScopeId) : Decidable (store.Has id) := by
  unfold Has
  infer_instance

theorem scope?_eq_none_iff : store.scope? id = none ↔ ¬ store.Has id := by
  unfold scope? Has
  rw [Array.getElem?_eq_none_iff, Nat.not_lt]

theorem Has.exists_scope (present : store.Has id) : ∃ scope, store.scope? id = some scope := by
  unfold scope?
  exact ⟨_, Array.getElem?_eq_getElem present⟩

theorem has_iff : store.Has id ↔ ∃ scope, store.scope? id = some scope := by
  refine ⟨Has.exists_scope, fun ⟨scope, found⟩ => Decidable.byContradiction fun absent => ?_⟩
  rw [scope?_eq_none_iff.2 absent] at found
  cases found

/-- What a name stands for in a scope stands for it for good if the name is a constant there. -/
theorem constant_of_binding? {name : String} {binding : Binding}
    (bound : store.binding? id name = some binding) :
    binding.constant = store.isConstant id name := by
  obtain ⟨scope, found, inScope⟩ := Option.bind_eq_some_iff.1 bound
  obtain ⟨value, _, rfl⟩ := Option.map_eq_some_iff.1 inScope
  unfold isConstant
  rw [found]
  rfl

/-! ## Binding a name -/

theorem scope?_bind (store : Store) (id other : ScopeId) (name : String) (binding : Binding) :
    (store.bind id name binding).scope? other =
      if other = id then (store.scope? other).map fun scope => scope.bind name binding
      else store.scope? other := by
  unfold scope? bind
  by_cases same : other = id
  · subst same
    rw [if_pos rfl, Array.getElem?_modify, if_pos rfl]
  · have differs : id.index ≠ other.index := by
      intro equal
      apply same
      cases other
      cases id
      exact congrArg ScopeId.mk equal.symm
    rw [if_neg same, Array.getElem?_modify, if_neg differs]

@[simp] theorem has_bind {name : String} {binding : Binding} :
    (store.bind id name binding).Has other ↔ store.Has other := by
  unfold Has bind
  rw [Array.size_modify]

@[simp] theorem parent?_bind (store : Store) (id other : ScopeId) (name : String)
    (binding : Binding) :
    (store.bind id name binding).parent? other = store.parent? other := by
  unfold parent?
  rw [scope?_bind]
  split
  · cases store.scope? other <;> rfl
  · rfl

@[simp] theorem depth_bind (store : Store) (id other : ScopeId) (name : String)
    (binding : Binding) :
    (store.bind id name binding).depth other = store.depth other := by
  unfold depth
  rw [scope?_bind]
  split
  · cases store.scope? other <;> rfl
  · rfl

theorem binding?_bind (present : store.Has id) (other : ScopeId) (name key : String)
    (binding : Binding) :
    (store.bind id name binding).binding? other key =
      if other = id ∧ key = name then
        some ⟨binding.value, binding.constant || store.isConstant id name⟩
      else store.binding? other key := by
  unfold binding? isConstant
  rw [scope?_bind]
  by_cases sameScope : other = id
  · subst sameScope
    obtain ⟨scope, found⟩ := present.exists_scope
    simp [found]
  · rw [if_neg sameScope, if_neg fun both => sameScope both.1]

theorem isConstant_bind (present : store.Has id) (other : ScopeId) (name key : String)
    (binding : Binding) :
    (store.bind id name binding).isConstant other key =
      (decide (other = id ∧ key = name) && binding.constant || store.isConstant other key) := by
  unfold isConstant
  rw [scope?_bind]
  by_cases sameScope : other = id
  · subst sameScope
    obtain ⟨scope, found⟩ := present.exists_scope
    simp [found]
  · simp [sameScope]

/-- Binding a name as a variable makes nothing a constant. -/
@[simp] theorem isConstant_bind_variable (store : Store) (id other : ScopeId) (name key : String)
    (value : Value) :
    (store.bind id name ⟨value, false⟩).isConstant other key = store.isConstant other key := by
  unfold isConstant
  rw [scope?_bind]
  split
  · cases store.scope? other <;> simp
  · rfl

/-- A name stands for what it was bound to, unless it is a constant and was bound as none. -/
theorem binding?_bind_self (present : store.Has id) (name : String) {binding : Binding}
    (agrees : store.isConstant id name = true → binding.constant = true) :
    (store.bind id name binding).binding? id name = some binding := by
  rw [binding?_bind present, if_pos ⟨rfl, rfl⟩]
  obtain ⟨value, constant⟩ := binding
  cases marked : store.isConstant id name with
  | false => rw [Bool.or_false]
  | true =>
      obtain rfl : constant = true := agrees marked
      rfl

/-! ## Making a scope -/

/-- A new scope leaves every other one as it was, whatever lies around it. -/
theorem scope?_push (store : Store) (scope : Scope) (other : ScopeId) :
    (store.push scope).scope? other =
      if other = store.nextId then some scope else store.scope? other := by
  unfold scope? push nextId
  rw [Array.getElem?_push]
  by_cases newest : other = ⟨store.scopes.size⟩
  · rw [if_pos newest, if_pos (congrArg ScopeId.index newest)]
  · rw [if_neg newest, if_neg fun same => newest (congrArg ScopeId.mk same)]

theorem not_has_nextId (store : Store) : ¬ store.Has store.nextId :=
  Nat.lt_irrefl _

theorem Has.ne_nextId (present : store.Has id) : id ≠ store.nextId :=
  fun same => store.not_has_nextId (same ▸ present)

theorem has_push {scope : Scope} :
    (store.push scope).Has other ↔ store.Has other ∨ other = store.nextId := by
  rw [has_iff, has_iff, scope?_push]
  by_cases newest : other = store.nextId <;> simp [newest]

theorem has_addEnclosed {parent : ScopeId} :
    (store.addEnclosed parent).2.Has other ↔ store.Has other ∨ other = store.nextId :=
  has_push

/-- Making a scope adds that scope and leaves every other as it was. -/
theorem scope?_addEnclosed (store : Store) (parent other : ScopeId) :
    (store.addEnclosed parent).2.scope? other =
      if other = store.nextId then some ⟨some parent, store.depth parent + 1, .empty, .empty⟩
      else store.scope? other :=
  scope?_push store _ other

theorem scope?_addEnclosed_of_has (present : store.Has other) (parent : ScopeId) :
    (store.addEnclosed parent).2.scope? other = store.scope? other := by
  rw [scope?_addEnclosed, if_neg present.ne_nextId]

theorem scope?_addEnclosed_nextId (store : Store) (parent : ScopeId) :
    (store.addEnclosed parent).2.scope? store.nextId =
      some ⟨some parent, store.depth parent + 1, .empty, .empty⟩ := by
  rw [scope?_addEnclosed, if_pos rfl]

end Store

end NanoScript
