import NanoScript.Proofs.Scope.Chain

/-!
Contract: names that stand for something.

Owns:
- names that a scope or one around it declares, which can be read and assigned;
- stores that have grown out of others, in which names go on standing for something;
- binding a name and making a scope let a store grow.
-/

namespace NanoScript.Store

variable {store later last : Store} {id owner parent : ScopeId} {name key : String}
  {binding : Binding}

/-- A name stands for something in a scope: that scope or one around it declares the name. -/
def Resolves (store : Store) (id : ScopeId) (name : String) : Prop :=
  ∃ owner ∈ store.chain id, store.declares owner name = true

theorem mem_chain_self (store : Store) (id : ScopeId) : id ∈ store.chain id := by
  unfold chain
  cases store.depth id with
  | zero => exact List.mem_singleton.2 rfl
  | succ steps =>
      unfold chainWithin
      split
      · exact List.mem_singleton.2 rfl
      · exact List.mem_cons_self

theorem resolves_of_declares (declared : store.declares id name = true) : store.Resolves id name :=
  ⟨id, store.mem_chain_self id, declared⟩

/-- A name that stands for something can be read. -/
theorem Resolves.exists_lookup (resolves : store.Resolves id name) :
    ∃ value, store.lookup id name = .ok value := by
  obtain ⟨owner, member, declared⟩ := resolves
  unfold lookup
  cases found : (store.chain id).findSome? fun scope => store.binding? scope name with
  | some binding => exact ⟨binding.value, rfl⟩
  | none =>
      have unbound := List.findSome?_eq_none_iff.1 found owner member
      rw [declares, unbound] at declared
      cases declared

/-- A name that stands for something can be assigned, unless it is a constant. -/
theorem Resolves.eq_constantReassigned {error : ScopeError} (resolves : store.Resolves id name)
    (fails : store.assignable id name = .error error) : error = .constantReassigned name := by
  obtain ⟨owner, member, declared⟩ := resolves
  unfold assignable resolve at fails
  cases found : (store.chain id).find? fun scope => store.declares scope name with
  | none =>
      exact absurd declared (List.find?_eq_none.1 found owner member)
  | some scope =>
      rw [found] at fails
      dsimp only at fails
      split at fails
      · cases fails
        rfl
      · cases fails

/-! ## Growing stores -/

/-- The parents of scopes are scopes of the store. -/
def HasParents (store : Store) : Prop :=
  ∀ id parent, store.parent? id = some parent → store.Has parent

/-- A store has grown out of another one: all scopes are still there, and names that stood for
something in them still do. -/
structure Extends (store later : Store) : Prop where
  has : ∀ {id}, store.Has id → later.Has id
  resolves : ∀ {id name}, store.Has id → store.Resolves id name → later.Resolves id name

theorem Extends.refl (store : Store) : store.Extends store :=
  ⟨fun present => present, fun _ resolves => resolves⟩

theorem Extends.trans (first : store.Extends later) (second : later.Extends last) :
    store.Extends last :=
  ⟨fun present => second.has (first.has present),
    fun present resolves => second.resolves (first.has present) (first.resolves present resolves)⟩

/-- Stores in which scopes have the same parents have the same chains. -/
theorem chainWithin_eq (parents : store.HasParents)
    (same : ∀ id, store.Has id → later.parent? id = store.parent? id) (steps : Nat)
    (present : store.Has id) : later.chainWithin steps id = store.chainWithin steps id := by
  induction steps generalizing id with
  | zero => rfl
  | succ steps inductionHypothesis =>
      unfold chainWithin
      rw [same id present]
      cases around : store.parent? id with
      | none => rfl
      | some parent => exact congrArg (id :: ·) (inductionHypothesis (parents id parent around))

theorem extends_of_same (parents : store.HasParents)
    (has : ∀ {id}, store.Has id → later.Has id)
    (parent : ∀ id, store.Has id → later.parent? id = store.parent? id)
    (depth : ∀ id, store.Has id → later.depth id = store.depth id)
    (declares : ∀ id name, store.declares id name = true → later.declares id name = true) :
    store.Extends later := by
  refine ⟨has, fun {id name} present resolves => ?_⟩
  obtain ⟨owner, member, declared⟩ := resolves
  refine ⟨owner, ?_, declares owner name declared⟩
  rw [chain, depth id present, chainWithin_eq parents parent _ present]
  exact member

/-! ## Binding a name -/

theorem HasParents.bind (parents : store.HasParents) :
    (store.bind owner name binding).HasParents := by
  intro id parent found
  rw [parent?_bind] at found
  exact has_bind.2 (parents id parent found)

theorem extends_bind (parents : store.HasParents) (owner : ScopeId) (name : String)
    (binding : Binding) : store.Extends (store.bind owner name binding) := by
  exact extends_of_same parents (fun isThere => has_bind.2 isThere) (fun _ _ => parent?_bind ..)
    (fun _ _ => depth_bind ..) fun _ _ declared => declares_bind_of_declares declared

/-- How many texts were read says nothing about names. -/
theorem extends_addText (parents : store.HasParents) : store.Extends store.addText.2 :=
  extends_of_same parents (fun isThere => isThere) (fun _ _ => rfl) (fun _ _ => rfl)
    fun _ _ declared => declared

/-! ## Making a scope -/

theorem has_addEnclosed_nextId : (store.addEnclosed parent).2.Has store.nextId :=
  has_addEnclosed.2 (.inr rfl)

theorem parent?_addEnclosed_nextId :
    (store.addEnclosed parent).2.parent? store.nextId = some parent := by
  rw [parent?, scope?_addEnclosed_nextId]
  rfl

theorem HasParents.addEnclosed (parents : store.HasParents) (present : store.Has parent) :
    (store.addEnclosed parent).2.HasParents := by
  intro id outer found
  rw [parent?, scope?_addEnclosed] at found
  split at found
  · cases found
    exact has_addEnclosed.2 (.inl present)
  · exact has_addEnclosed.2 (.inl (parents id outer found))

theorem extends_addEnclosed (parents : store.HasParents) (parent : ScopeId) :
    store.Extends (store.addEnclosed parent).2 := by
  refine extends_of_same parents (fun isThere => has_addEnclosed.2 (.inl isThere))
    (fun id present => ?_) (fun id present => ?_) fun id name declared => ?_
  · rw [parent?, scope?_addEnclosed_of_has present, parent?]
  · rw [depth, scope?_addEnclosed_of_has present, depth]
  · obtain ⟨binding, bound⟩ := Option.isSome_iff_exists.1 declared
    have present := has_of_binding? bound
    rw [declares, binding?, scope?_addEnclosed_of_has present]
    exact declared

/-- What stands for something in a scope does so in a new scope inside it. -/
theorem resolves_addEnclosed (parents : store.HasParents) (present : store.Has parent)
    (resolves : store.Resolves parent name) :
    (store.addEnclosed parent).2.Resolves store.nextId name := by
  obtain ⟨owner, member, declared⟩ :=
    (extends_addEnclosed parents parent).resolves present resolves
  refine ⟨owner, ?_, declared⟩
  have depths : (store.addEnclosed parent).2.depth store.nextId = store.depth parent + 1 := by
    rw [depth, scope?_addEnclosed_nextId]
    rfl
  have same : (store.addEnclosed parent).2.depth parent = store.depth parent := by
    rw [depth, scope?_addEnclosed_of_has present, depth]
  rw [chain, depths, chainWithin, parent?_addEnclosed_nextId]
  rw [chain, same] at member
  exact List.mem_cons_of_mem _ member

end NanoScript.Store
