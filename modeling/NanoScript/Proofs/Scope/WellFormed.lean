import NanoScript.Host.Standard
import NanoScript.Proofs.Scope.Resolution

/-!
Contract: well-formed stores, in which every way outwards ends at an outermost scope.

Owns:
- well-formedness, a condition on each scope and the scope around it alone, and that every operation
  on scopes keeps it, the constants of a scope among its names included;
- the scopes that are met on the way outwards, one for each depth down to zero, none of them twice;
- the chain of a scope: it lists exactly these scopes, and can be taken apart one scope at a time.

Functions may see the very scope that binds them, so that scopes and values together form cycles.
The scopes around a scope never do, because the depth falls by one with every step outwards.
-/

namespace NanoScript.Store

variable {store : Store} {id owner parent : ScopeId} {name key : String} {binding : Binding}

/-- Every constant of a scope is a name that the scope declares.  Scopes with nothing around them
have depth zero.  Any other lies one deeper than the scope around it, which the store has. -/
structure WellFormed (store : Store) : Prop where
  constants : ∀ {id name}, store.isConstant id name = true → store.declares id name = true
  outermost : ∀ {id}, store.Has id → store.parent? id = none → store.depth id = 0
  enclosed : ∀ {id parent}, store.parent? id = some parent →
    store.Has parent ∧ store.depth id = store.depth parent + 1

/-! ## Operations -/

theorem has_of_scope? {scope : Scope} (found : store.scope? id = some scope) : store.Has id :=
  has_iff.2 ⟨scope, found⟩

theorem has_of_parent? (found : store.parent? id = some parent) : store.Has id := by
  obtain ⟨scope, present, _⟩ := Option.bind_eq_some_iff.1 found
  exact has_of_scope? present

theorem depth_of_not_has (absent : ¬ store.Has id) : store.depth id = 0 := by
  rw [depth, scope?_eq_none_iff.2 absent]
  rfl

theorem isConstant_of_not_has (absent : ¬ store.Has id) : store.isConstant id name = false := by
  rw [isConstant, scope?_eq_none_iff.2 absent]
  rfl

/-- What a well-formed store does not declare is no constant either. -/
theorem WellFormed.isConstant_of_undeclared (wellFormed : store.WellFormed)
    (undeclared : store.declares id name = false) : store.isConstant id name = false := by
  refine Bool.eq_false_iff.2 fun marked => ?_
  rw [wellFormed.constants marked] at undeclared
  cases undeclared

theorem wellFormed_empty : empty.WellFormed := by
  have nowhere (id : ScopeId) : ¬ empty.Has id := Nat.not_lt_zero _
  refine ⟨fun {id name} marked => ?_, fun present => ?_, fun found => ?_⟩
  · rw [isConstant_of_not_has (nowhere id)] at marked
    cases marked
  · exact absurd present (nowhere _)
  · exact absurd (has_of_parent? found) (nowhere _)

/-- A name is made a constant only together with being bound, in the same scope. -/
theorem WellFormed.bind (wellFormed : store.WellFormed) :
    (store.bind owner name binding).WellFormed := by
  refine ⟨fun {id key} marked => ?_, fun present found => ?_, fun found => ?_⟩
  · by_cases here : id = owner ∧ key = name
    · obtain ⟨rfl, rfl⟩ := here
      refine declares_bind_self (Decidable.byContradiction fun absent => ?_)
      rw [isConstant_of_not_has fun has => absent (has_bind.1 has)] at marked
      cases marked
    · rw [isConstant_bind_of_elsewhere here] at marked
      exact declares_bind_of_declares (wellFormed.constants marked)
  · rw [parent?_bind] at found
    rw [depth_bind]
    exact wellFormed.outermost (has_bind.1 present) found
  · rw [parent?_bind] at found
    rw [has_bind, depth_bind, depth_bind]
    exact wellFormed.enclosed found

/-- A scope may be made anywhere as long as its depth fits the scope around it and its constants are
names of it. -/
theorem WellFormed.push (wellFormed : store.WellFormed) {scope : Scope}
    (constants : ∀ name, scope.constants.contains name = true →
      (scope.binding? name).isSome = true)
    (outermost : scope.parent = none → scope.depth = 0)
    (enclosed : ∀ parent, scope.parent = some parent →
      store.Has parent ∧ scope.depth = store.depth parent + 1) :
    (store.push scope).WellFormed := by
  have same : ∀ {other}, store.Has other → (store.push scope).scope? other = store.scope? other :=
    fun present => (scope?_push ..).trans (if_neg present.ne_nextId)
  have newest : (store.push scope).scope? store.nextId = some scope :=
    (scope?_push ..).trans (if_pos rfl)
  have sameDepth : ∀ {other}, store.Has other →
      (store.push scope).depth other = store.depth other :=
    fun present => by rw [depth, same present, depth]
  refine ⟨fun {id name} marked => ?_, fun {id} present found => ?_, fun {id parent} found => ?_⟩
  · have present : (store.push scope).Has id := Decidable.byContradiction fun absent => by
      rw [isConstant_of_not_has absent] at marked
      cases marked
    rcases has_push.1 present with older | rfl
    · rw [isConstant, same older] at marked
      rw [declares, binding?, same older]
      exact wellFormed.constants marked
    · rw [isConstant, newest] at marked
      rw [declares, binding?, newest]
      exact constants name marked
  · rcases has_push.1 present with older | rfl
    · rw [parent?, same older] at found
      rw [sameDepth older]
      exact wellFormed.outermost older found
    · rw [parent?, newest] at found
      rw [depth, newest]
      exact outermost found
  · rcases has_push.1 (has_of_parent? found) with older | rfl
    · rw [parent?, same older] at found
      obtain ⟨present, deeper⟩ := wellFormed.enclosed found
      rw [sameDepth older, sameDepth present]
      exact ⟨has_push.2 (.inl present), deeper⟩
    · rw [parent?, newest] at found
      obtain ⟨present, deeper⟩ := enclosed parent found
      rw [depth, newest, sameDepth present]
      exact ⟨has_push.2 (.inl present), deeper⟩

/-- How many texts were read says nothing about the scopes. -/
theorem WellFormed.addText (wellFormed : store.WellFormed) : store.addText.2.WellFormed :=
  ⟨wellFormed.constants, wellFormed.outermost, wellFormed.enclosed⟩

theorem WellFormed.addOutermost (wellFormed : store.WellFormed) :
    store.addOutermost.2.WellFormed :=
  wellFormed.push nofun (fun _ => rfl) nofun

theorem WellFormed.addEnclosed (wellFormed : store.WellFormed) (present : store.Has parent) :
    (store.addEnclosed parent).2.WellFormed := by
  refine wellFormed.push nofun nofun fun outer found => ?_
  cases found
  exact ⟨present, rfl⟩

theorem WellFormed.addGlobal (wellFormed : store.WellFormed) : store.addGlobal.2.WellFormed :=
  wellFormed.addOutermost.bind.bind.bind.bind

/-! ## The way outwards -/

/-- The scope that lies a number of steps outwards, if there are so many. -/
def outwards (store : Store) : (steps : Nat) → ScopeId → Option ScopeId
  | 0, id => some id
  | steps + 1, id => (store.parent? id).bind (store.outwards steps)

theorem outwards_succ (found : store.parent? id = some parent) (steps : Nat) :
    store.outwards (steps + 1) id = store.outwards steps parent := by
  rw [outwards, found]
  rfl

/-- With every step outwards the depth falls by one. -/
theorem WellFormed.outwards_some (wellFormed : store.WellFormed) {steps : Nat}
    (present : store.Has id) (reached : store.outwards steps id = some owner) :
    store.Has owner ∧ store.depth owner + steps = store.depth id := by
  induction steps generalizing id with
  | zero =>
      cases reached
      exact ⟨present, rfl⟩
  | succ steps inductionHypothesis =>
      obtain ⟨parent, found, later⟩ := Option.bind_eq_some_iff.1 reached
      obtain ⟨parentPresent, deeper⟩ := wellFormed.enclosed found
      obtain ⟨ownerPresent, depths⟩ := inductionHypothesis parentPresent later
      refine ⟨ownerPresent, ?_⟩
      omega

/-- There are as many steps outwards as the depth says, and no more. -/
theorem WellFormed.outwards_eq_none_iff (wellFormed : store.WellFormed) {steps : Nat}
    (present : store.Has id) : store.outwards steps id = none ↔ store.depth id < steps := by
  induction steps generalizing id with
  | zero => simp [outwards]
  | succ steps inductionHypothesis =>
      cases found : store.parent? id with
      | none =>
          have shallow := wellFormed.outermost present found
          rw [outwards, found]
          simp [shallow]
      | some parent =>
          obtain ⟨parentPresent, deeper⟩ := wellFormed.enclosed found
          rw [outwards_succ found, inductionHypothesis parentPresent]
          omega

/-- No scope is met twice on the way outwards. -/
theorem WellFormed.outwards_injective (wellFormed : store.WellFormed) (present : store.Has id)
    {first second : Nat} (early : store.outwards first id = some owner)
    (late : store.outwards second id = some owner) : first = second := by
  have atFirst := (wellFormed.outwards_some present early).2
  have atSecond := (wellFormed.outwards_some present late).2
  omega

/-! ## Chains -/

/-- The chain of a scope is that scope and the chain of the scope around it. -/
theorem WellFormed.chain_eq (wellFormed : store.WellFormed) (id : ScopeId) :
    store.chain id =
      match store.parent? id with
      | none => [id]
      | some parent => id :: store.chain parent := by
  unfold chain
  cases found : store.parent? id with
  | none => cases store.depth id <;> simp [chainWithin, found]
  | some parent =>
      rw [(wellFormed.enclosed found).2, chainWithin, found]

/-- A walk outwards that may take more steps than the depth of the scope meets nothing more. -/
theorem WellFormed.chainWithin_eq_chain (wellFormed : store.WellFormed) {steps : Nat}
    (enough : store.depth id ≤ steps) : store.chainWithin steps id = store.chain id := by
  induction steps generalizing id with
  | zero =>
      have shallow : store.depth id = 0 := by omega
      rw [chain, shallow]
  | succ steps inductionHypothesis =>
      rw [wellFormed.chain_eq, chainWithin]
      cases found : store.parent? id with
      | none => rfl
      | some parent =>
          have deeper := (wellFormed.enclosed found).2
          exact congrArg (id :: ·) (inductionHypothesis (by omega))

/-- What passes from the scope around a scope to that scope holds of every scope. -/
theorem WellFormed.induction (wellFormed : store.WellFormed) {property : ScopeId → Prop}
    (inwards : ∀ id, (∀ parent, store.parent? id = some parent → property parent) → property id)
    (id : ScopeId) : property id := by
  -- The depth is what falls on the way outwards, so the induction is on it.
  suffices below : ∀ depth id, store.depth id = depth → property id from below _ id rfl
  intro depth
  induction depth with
  | zero =>
      intro id isZero
      refine inwards id fun parent found => ?_
      have deeper := (wellFormed.enclosed found).2
      omega
  | succ depth inductionHypothesis =>
      intro id isSucc
      refine inwards id fun parent found => inductionHypothesis parent ?_
      have deeper := (wellFormed.enclosed found).2
      omega

/-- The chain of a scope lists what lies no step outwards, one step, two steps, and so on up to the
depth of the scope. -/
theorem WellFormed.chain_outwards (wellFormed : store.WellFormed) (id : ScopeId) :
    (store.chain id).map some =
      (List.range (store.depth id + 1)).map fun steps => store.outwards steps id := by
  induction id using wellFormed.induction with
  | inwards id inductionHypothesis =>
      rw [wellFormed.chain_eq, List.range_succ_eq_map, List.map_cons, List.map_map]
      cases found : store.parent? id with
      | none =>
          have shallow : store.depth id = 0 := by
            by_cases present : store.Has id
            · exact wellFormed.outermost present found
            · exact depth_of_not_has present
          rw [shallow]
          rfl
      | some parent =>
          rw [(wellFormed.enclosed found).2, List.map_cons, inductionHypothesis parent found]
          refine congrArg (some id :: ·) (List.map_congr_left fun steps _ => ?_)
          exact (outwards_succ found steps).symm

end NanoScript.Store
