import NanoScript.Host.Standard
import NanoScript.Proofs.Value.Functions

/-!
Contract: what every program finds when it starts.

Owns:
- what holds of all scopes that are there at the start;
- nothing that is bound at the start contains a declared function.
-/

namespace NanoScript

/-- What a test says of the scopes that are listed at the start holds of any scope there. -/
theorem State.of_scope?_initial {test : Scope → Bool}
    (all : State.initial.2.store.scopes.toList.all test = true) {id : ScopeId} {scope : Scope}
    (present : State.initial.2.store.scope? id = some scope) : test scope = true :=
  List.all_eq_true.1 all scope (Array.mem_toList_iff.2 (Array.mem_of_getElem? present))

theorem State.not_holds_initial (function : Function) :
    ¬ State.initial.2.store.Holds function := by
  have none : (State.initial.2.store.scopes.toList.all fun scope =>
      scope.values.entries.all fun entry => entry.2.functions.isEmpty) = true := rfl
  rintro ⟨id, scope, present, entry, bound, occurs⟩
  have isEmpty := List.all_eq_true.1 (of_scope?_initial none present) entry bound
  rw [List.isEmpty_iff.1 isEmpty] at occurs
  cases occurs

end NanoScript
