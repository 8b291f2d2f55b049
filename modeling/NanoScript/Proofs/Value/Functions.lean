import NanoScript.Proofs.Table
import NanoScript.Proofs.Scope.Chain

/-!
Contract: the functions that values and stores hold.

Owns:
- the declared functions that a value is or contains at any depth;
- the values that are bound in a store and the functions that it holds in them, and what binding a
  name or making a scope does to them.
-/

namespace NanoScript

mutual

/-- The declared functions in a value: the value itself, or those in the properties of an object. -/
def Value.functions : Value → List Function
  | .function declared => [declared]
  | .object ⟨properties⟩ => Value.propertyFunctions properties
  | .null | .boolean _ | .number _ | .native _ => []

/-- The declared functions in properties. -/
def Value.propertyFunctions : List (String × Value) → List Function
  | [] => []
  | (_, value) :: rest => value.functions ++ Value.propertyFunctions rest

end

theorem Value.mem_propertyFunctions {function : Function} {properties : List (String × Value)} :
    function ∈ Value.propertyFunctions properties ↔
      ∃ property ∈ properties, function ∈ property.2.functions := by
  induction properties with
  | nil => simp [Value.propertyFunctions]
  | cons head rest inductionHypothesis =>
      obtain ⟨key, value⟩ := head
      simp [Value.propertyFunctions, inductionHypothesis]

theorem Value.mem_functions_object {function : Function} {properties : Table Value} :
    function ∈ (Value.object properties).functions ↔
      ∃ property ∈ properties.entries, function ∈ property.2.functions :=
  Value.mem_propertyFunctions

/-- A value that is neither an object nor a declared function. -/
def Value.IsPlain (value : Value) : Prop :=
  value.kind ≠ .object ∧ value.kind ≠ .function

section

variable {holds : Function → Prop} {properties : Table Value} {key : String} {value : Value}

theorem Value.forall_functions_of_isPlain (isPlain : value.IsPlain) :
    ∀ function ∈ value.functions, holds function := by
  cases value with
  | object _ => exact absurd rfl isPlain.1
  | function _ => exact absurd rfl isPlain.2
  | _ => exact nofun

/-- Setting a property adds no functions but those in its value. -/
theorem Value.forall_functions_insert (key : String)
    (inObject : ∀ function ∈ (Value.object properties).functions, holds function)
    (inValue : ∀ function ∈ value.functions, holds function) :
    ∀ function ∈ (Value.object (properties.insert key value)).functions, holds function := by
  intro function member
  obtain ⟨property, inserted, occurs⟩ := Value.mem_functions_object.1 member
  rcases Table.eq_or_mem_of_mem_insert inserted with rfl | older
  · exact inValue function occurs
  · exact inObject function (Value.mem_functions_object.2 ⟨property, older, occurs⟩)

theorem Value.forall_functions_property
    (inObject : ∀ function ∈ (Value.object properties).functions, holds function)
    (found : properties.find? key = some value) :
    ∀ function ∈ value.functions, holds function :=
  fun function member => inObject function
    (Value.mem_functions_object.2 ⟨(key, value), Table.mem_of_find? found, member⟩)

end

namespace Store

variable {store : Store} {function : Function} {value : Value}

/-- A value stands under a name in some scope of a store. -/
def Binds (store : Store) (value : Value) : Prop :=
  ∃ id scope, store.scope? id = some scope ∧ ∃ entry ∈ scope.values.entries, entry.2 = value

/-- A function is bound in some scope of a store, as a value or inside one. -/
def Holds (store : Store) (function : Function) : Prop :=
  ∃ id scope, store.scope? id = some scope ∧
    ∃ entry ∈ scope.values.entries, function ∈ entry.2.functions

theorem Binds.holds (binds : store.Binds value) (member : function ∈ value.functions) :
    store.Holds function := by
  obtain ⟨id, scope, present, entry, bound, rfl⟩ := binds
  exact ⟨id, scope, present, entry, bound, member⟩

theorem Holds.exists_binds (held : store.Holds function) :
    ∃ value, store.Binds value ∧ function ∈ value.functions := by
  obtain ⟨id, scope, present, entry, bound, member⟩ := held
  exact ⟨entry.2, ⟨id, scope, present, entry, bound, rfl⟩, member⟩

/-- What a scope binds a name to is listed among its values. -/
theorem mem_values_of_binding? {id : ScopeId} {name : String} {binding : Binding}
    (bound : store.binding? id name = some binding) :
    ∃ scope, store.scope? id = some scope ∧ (name, binding.value) ∈ scope.values.entries := by
  obtain ⟨scope, present, inScope⟩ := Option.bind_eq_some_iff.1 bound
  obtain ⟨value, entry, rfl⟩ := Option.map_eq_some_iff.1 inScope
  exact ⟨scope, present, Table.mem_of_find? entry⟩

/-- What a name stands for is bound somewhere. -/
theorem binds_of_lookup {id : ScopeId} {name : String}
    (found : store.lookup id name = .ok value) : store.Binds value := by
  obtain ⟨owner, _, binding, bound, rfl⟩ := lookup_eq_ok found
  obtain ⟨scope, present, listed⟩ := mem_values_of_binding? bound
  exact ⟨owner, scope, present, _, listed, rfl⟩

/-- What a name stands for holds its functions. -/
theorem holds_of_lookup {id : ScopeId} {name : String}
    (found : store.lookup id name = .ok value) (member : function ∈ value.functions) :
    store.Holds function :=
  (binds_of_lookup found).holds member

/-- Binding a name adds no value but the one that the name stands for then. -/
theorem Binds.of_bind {owner : ScopeId} {name : String} {binding : Binding}
    (binds : (store.bind owner name binding).Binds value) :
    value = binding.value ∨ store.Binds value := by
  obtain ⟨id, scope, present, entry, bound, rfl⟩ := binds
  rw [scope?_bind] at present
  split at present
  · obtain ⟨older, isThere, rfl⟩ := Option.map_eq_some_iff.1 present
    rcases Table.eq_or_mem_of_mem_insert bound with rfl | inOlder
    · exact .inl rfl
    · exact .inr ⟨id, older, isThere, entry, inOlder, rfl⟩
  · exact .inr ⟨id, scope, present, entry, bound, rfl⟩

/-- A new scope that declares nothing binds nothing. -/
theorem Binds.of_push {scope : Scope} (empty : scope.values = .empty)
    (binds : (store.push scope).Binds value) : store.Binds value := by
  obtain ⟨id, holder, present, entry, bound, rfl⟩ := binds
  rw [scope?_push] at present
  split at present
  · cases present
    rw [empty] at bound
    cases bound
  · exact ⟨id, holder, present, entry, bound, rfl⟩

/-- Binding a name adds no functions but those in what the name stands for. -/
theorem Holds.of_bind {owner : ScopeId} {name : String} {binding : Binding}
    (held : (store.bind owner name binding).Holds function) :
    function ∈ binding.value.functions ∨ store.Holds function := by
  obtain ⟨value, binds, member⟩ := held.exists_binds
  rcases binds.of_bind with rfl | older
  · exact .inl member
  · exact .inr (older.holds member)

/-- A new scope that declares nothing holds nothing. -/
theorem Holds.of_push {scope : Scope} (empty : scope.values = .empty)
    (held : (store.push scope).Holds function) : store.Holds function := by
  obtain ⟨value, binds, member⟩ := held.exists_binds
  exact (binds.of_push empty).holds member

end Store

end NanoScript
