import NanoScript.Proofs.Evaluation.Following
import NanoScript.Proofs.Run.Start
import NanoScript.Proofs.Value.Equality

/-!
Contract: programs make values whose objects have each of their keys once, and compare such values.

Owns:
- states in which all values that are bound have their keys once, and the changes that keep them so;
- the regime of evaluations that make such changes, and with it that runs give such values;
- the theorem that equality of such values is symmetric and transitive, and that a value equals
  itself unless something in it is not a number.

An object only grows by the setting of properties, and setting a property that is there replaces it.
-/

namespace NanoScript

/-! ## States -/

/-- All values that are bound have each of their keys once. -/
def State.IsKeyed (state : State) : Prop :=
  ∀ value, state.store.Binds value → value.IsKeyed

/-- A change after which all values that are bound have their keys once if they had before. -/
inductive State.KeepsKeys : State → State → Prop
  | print {state : State} (line : String) : KeepsKeys state (state.print line)
  | bind {state : State} {owner : ScopeId} {name : String} {binding : Binding}
      (keyed : binding.value.IsKeyed) : KeepsKeys state (state.bind owner name binding)
  | addEnclosed {state : State} {parent : ScopeId} : KeepsKeys state (state.addEnclosed parent)

theorem State.KeepsKeys.isKeyed {before after : State} (change : State.KeepsKeys before after)
    (keyed : before.IsKeyed) : after.IsKeyed := by
  intro value binds
  cases change with
  | print line => exact keyed value binds
  | bind boundKeyed =>
      rcases binds.of_bind with rfl | older
      · exact boundKeyed
      · exact keyed value older
  | addEnclosed => exact keyed value (binds.of_push rfl)

theorem State.isKeyed_initial : State.initial.2.IsKeyed := by
  have plain : (State.initial.2.store.scopes.toList.all fun scope =>
      scope.values.entries.all fun entry => decide (entry.2.kind ≠ .object)) = true := rfl
  rintro value ⟨id, scope, present, entry, bound, rfl⟩
  have notObject := List.all_eq_true.1 (of_scope?_initial plain present) entry bound
  exact Value.isKeyed_of_kind (of_decide_eq_true notObject)

/-! ## Evaluation -/

/-- The evaluations in states in which all values have their keys once. -/
def Regime.keyed : Regime where
  Admits := State.IsKeyed
  Knows _ value := value.IsKeyed
  Fits _ _ _ := True
  Opens _ _ _ := True
  Calls _ _ _ := True
  Uses _ := True
  Allows _ := True
  Change := State.KeepsKeys
  admits := State.KeepsKeys.isKeyed
  knows _ keyed := keyed
  fits _ _ := trivial
  opens _ _ := trivial
  within _ _ := trivial
  plain isPlain := Value.isKeyed_of_kind isPlain.1
  empty := .object Table.distinct_empty nofun
  insert key object value := object.insert key value
  property object found := object.property found
  seen _ := trivial
  part _ _ _ := trivial
  block _ := trivial
  head _ := trivial
  next _ _ := trivial
  read keyed _ found := keyed _ (Store.binds_of_lookup found)
  declareVariable _ _ _ keyed := .bind keyed
  declareFunction _ _ _ _ := ⟨.bind (.function _), .function _⟩
  assign _ _ _ _ keyed := .bind keyed
  enclose _ _ := ⟨.addEnclosed, trivial⟩
  parameter _ _ _ keyed := .bind keyed
  body _ _ _ := trivial
  call _ _ _ _ _ := trivial
  tooDeep := trivial
  raises _ _ _ := trivial
  arity _ _ := trivial
  repeated _ _ := trivial

/-- A run gives a value whose objects have their keys once, and leaves only such values, if there
were only such values before. -/
theorem run_keyed (depth : Nat) (source : String) (scope : ScopeId) {state : State}
    (keyed : state.IsKeyed) :
    (run (Invoker.upTo Host.standard depth) source scope state).2.IsKeyed ∧
      ∀ value, (run (Invoker.upTo Host.standard depth) source scope state).1 = .ok value →
        value.IsKeyed := by
  cases reads : Phrase.ofSource source with
  | error error =>
      rw [run_of_fails _ reads]
      exact ⟨keyed, nofun⟩
  | ok program =>
      have covers : Regime.keyed.Covers Host.standard :=
        Regime.covers_standard fun line => State.KeepsKeys.print line
      have trusts := (covers.trusts (fun _ => trivial) depth).within state.store.texts
      have fits : Regime.keyed.Fits state.addText scope [program] := trivial
      have ends := Phrase.evaluate_follows trusts program fits state.addText .refl keyed
      rw [run_of_reads _ reads]
      exact ⟨ends.grown.admits keyed, fun value isOk => (ends.gives isOk).1⟩

namespace Value

/-- Among values whose objects have each key once, equality is symmetric and transitive, and a value
equals itself just if no number at any depth inside it is not a number.  Objects are compared by how
many properties they have and by the look-up of every key, and functions by name, body and scope.
Programs make only such values. -/
theorem equals_partial_equivalence {first second third : Value} (firstKeyed : first.IsKeyed)
    (secondKeyed : second.IsKeyed) (thirdKeyed : third.IsKeyed) :
    (first.equals second = true → second.equals first = true) ∧
    (first.equals second = true → second.equals third = true → first.equals third = true) ∧
    (∀ value ∈ [first, second, third], value.equals value = true ↔
      ∀ number : Number, number.OccursIn value → number.isNotANumber = false) ∧
    (∀ left right : Table Value,
      ((object left).equals (.object right) = true ↔
        left.entries.length = right.entries.length ∧ AllFoundIn right left)) ∧
    (∀ left right : Function,
      ((function left).equals (.function right) = true ↔
        left.name = right.name ∧ left.bodyId = right.bodyId ∧ left.closure = right.closure)) ∧
    State.initial.2.IsKeyed ∧
    ∀ (depth : Nat) (source : String) (scope : ScopeId) (state : State), state.IsKeyed →
      (run (Invoker.upTo Host.standard depth) source scope state).2.IsKeyed ∧
        ∀ value, (run (Invoker.upTo Host.standard depth) source scope state).1 = .ok value →
          value.IsKeyed := by
  refine ⟨equals_symm firstKeyed secondKeyed, equals_trans, ?_, fun _ _ => equals_object_iff, ?_,
    State.isKeyed_initial, fun depth source scope state => run_keyed depth source scope⟩
  · simpa using ⟨equals_self_iff firstKeyed, equals_self_iff secondKeyed,
      equals_self_iff thirdKeyed⟩
  · intro left right
    rw [equals, sameDeclaration_iff]

/-- Objects around the two zeros, their keys in different orders, are equal both ways, and an object
around what is not a number does not equal itself. -/
theorem objects_around_zeros_equal :
    let positive := object ⟨[("a", .object ⟨[("b", .number .zero)]⟩), ("f", .native ⟨"f", "x"⟩)]⟩
    let negative :=
      object ⟨[("f", .native ⟨"f", "y"⟩), ("a", .object ⟨[("b", .number (.ofRank true 0))]⟩)]⟩
    let undefined := object ⟨[("a", .object ⟨[("b", .number .notANumber)]⟩)]⟩
    (positive.IsKeyed ∧ negative.IsKeyed ∧ undefined.IsKeyed) ∧
      positive.equals negative = true ∧ negative.equals positive = true ∧
      positive.equals positive = true ∧ ¬ undefined.equals undefined = true := by
  intro positive negative undefined
  have around (number : Number) : (object ⟨[("b", .number number)]⟩).IsKeyed :=
    .object (List.pairwise_singleton _ _) (List.forall_mem_singleton.2 (.number number))
  have positiveKeyed : positive.IsKeyed :=
    .object (by decide) (List.forall_mem_cons.2
      ⟨around _, List.forall_mem_singleton.2 (.native ⟨"f", "x"⟩)⟩)
  have negativeKeyed : negative.IsKeyed :=
    .object (by decide) (List.forall_mem_cons.2
      ⟨.native ⟨"f", "y"⟩, List.forall_mem_singleton.2 (around _)⟩)
  have undefinedKeyed : undefined.IsKeyed :=
    .object (by decide) (List.forall_mem_singleton.2 (around _))
  have same : positive.equals negative = true := by decide
  obtain ⟨turn, _⟩ := equals_partial_equivalence positiveKeyed negativeKeyed undefinedKeyed
  obtain ⟨_, join, selves, _⟩ :=
    equals_partial_equivalence positiveKeyed negativeKeyed positiveKeyed
  obtain ⟨_, _, onlyNumbers, _⟩ :=
    equals_partial_equivalence undefinedKeyed undefinedKeyed undefinedKeyed
  refine ⟨⟨positiveKeyed, negativeKeyed, undefinedKeyed⟩, same, turn same,
    join same (turn same), fun equal => ?_⟩
  have occurs : Number.notANumber.OccursIn undefined :=
    .property List.mem_cons_self (.property List.mem_cons_self .self)
  have isNumber := (onlyNumbers undefined List.mem_cons_self).1 equal .notANumber occurs
  exact absurd isNumber (by decide)

/-- Functions of one name that see one scope differ if their bodies do, even if these read alike. -/
example :
    (function ⟨"f", [], [], ⟨0, ⟨0, 8⟩⟩, ⟨0⟩⟩).equals (.function ⟨"f", [], [], ⟨1, ⟨0, 8⟩⟩, ⟨0⟩⟩) =
      false := by
  decide

end Value

end NanoScript
