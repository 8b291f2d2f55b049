import NanoScript.Proofs.Evaluation.Similarity
import NanoScript.Proofs.Value.Functions

/-!
Contract: two runs that start in one state.

Owns:
- values, scopes and states with the functions in them changed, wherever they are;
- values that correspond to what they are changed to because the functions in them do;
- the likeness of two runs from one state, in which every scope corresponds to itself; the second
  run may start with the functions in the state changed;
- the outcomes of two runs that end alike;
- values, scopes and states that correspond, which are equal once their functions are changed into
  equal ones.
-/

namespace NanoScript

/-! ## Values changed in their functions -/

mutual

/-- A value with its functions changed, wherever they are in it. -/
def Value.mapFunctions (onFunction : Function → Function) : Value → Value
  | .function declared => .function (onFunction declared)
  | .object ⟨properties⟩ => .object ⟨Value.mapPropertyFunctions onFunction properties⟩
  | .null => .null
  | .boolean value => .boolean value
  | .number value => .number value
  | .native provided => .native provided

/-- Properties with their functions changed. -/
def Value.mapPropertyFunctions (onFunction : Function → Function) :
    List (String × Value) → List (String × Value)
  | [] => []
  | (key, value) :: rest =>
      (key, value.mapFunctions onFunction) :: Value.mapPropertyFunctions onFunction rest

end

/-- A scope with the functions bound in it changed. -/
def Scope.mapFunctions (onFunction : Function → Function) (scope : Scope) : Scope :=
  { scope with
    values := ⟨scope.values.entries.map fun entry =>
      (entry.1, entry.2.mapFunctions onFunction)⟩ }

mutual

theorem Value.mapFunctions_id (value : Value) : value.mapFunctions id = value := by
  match value with
  | .null => rfl
  | .boolean _ => rfl
  | .number _ => rfl
  | .native _ => rfl
  | .function _ => rfl
  | .object ⟨properties⟩ =>
      unfold Value.mapFunctions
      rw [Value.mapPropertyFunctions_id properties]

theorem Value.mapPropertyFunctions_id (properties : List (String × Value)) :
    Value.mapPropertyFunctions id properties = properties := by
  match properties with
  | [] => rfl
  | (_, value) :: rest =>
      unfold Value.mapPropertyFunctions
      rw [value.mapFunctions_id, Value.mapPropertyFunctions_id rest]

end

theorem Scope.mapFunctions_id (scope : Scope) : scope.mapFunctions id = scope := by
  unfold Scope.mapFunctions
  simp [Value.mapFunctions_id]

/-- A state with the functions in all its scopes changed. -/
def State.mapFunctions (onFunction : Function → Function) (state : State) : State :=
  ⟨⟨state.store.scopes.map (Scope.mapFunctions onFunction), state.store.texts⟩, state.output⟩

theorem State.mapFunctions_id (state : State) : state.mapFunctions id = state := by
  unfold State.mapFunctions
  rw [show Scope.mapFunctions id = id from funext Scope.mapFunctions_id, Array.map_id]

theorem State.scope?_mapFunctions (onFunction : Function → Function) (state : State)
    (scope : ScopeId) :
    (state.mapFunctions onFunction).store.scope? scope =
      (state.store.scope? scope).map (Scope.mapFunctions onFunction) :=
  Array.getElem?_map

namespace Likeness

variable {likeness : Likeness}

/-! ## Values that correspond but for their functions -/

mutual

/-- A value corresponds to the value with its functions changed if the functions do. -/
theorem values_mapFunctions (onFunction : Function → Function) (value : Value)
    (alike : ∀ function ∈ value.functions, likeness.Functions function (onFunction function)) :
    likeness.Values value (value.mapFunctions onFunction) := by
  match value with
  | .null => exact .null
  | .boolean _ => exact .boolean
  | .number _ => exact .number
  | .native _ => exact .native
  | .function declared => exact .function (alike declared (List.mem_singleton.2 rfl))
  | .object ⟨properties⟩ =>
      exact .object (properties_mapFunctions onFunction properties alike)

theorem properties_mapFunctions (onFunction : Function → Function)
    (properties : List (String × Value))
    (alike : ∀ function ∈ Value.propertyFunctions properties,
      likeness.Functions function (onFunction function)) :
    likeness.Properties properties (Value.mapPropertyFunctions onFunction properties) := by
  match properties with
  | [] => exact .nil
  | (_, value) :: rest =>
      exact .cons
        (values_mapFunctions onFunction value fun function member =>
          alike function (List.mem_append_left _ member))
        (properties_mapFunctions onFunction rest fun function member =>
          alike function (List.mem_append_right _ member))

end

theorem values_self (value : Value)
    (selves : ∀ function ∈ value.functions, likeness.Functions function function) :
    likeness.Values value value := by
  have alike := values_mapFunctions id value selves
  rw [Value.mapFunctions_id] at alike
  exact alike

/-! ## Runs from one state -/

/-- Two runs from one state: every scope corresponds to itself.  How many texts were read before the
second run is given apart. -/
def inPlace (matching : Matching) (state : State) (rightTexts : Nat) : Likeness where
  toMatching := matching
  old left right := left = right ∧ left.index < state.size
  leftSize := state.size
  rightSize := state.size
  leftOld both := both.2
  rightOld both := both.1 ▸ both.2
  oneToOne := by
    rintro left _ other _ ⟨rfl, _⟩ ⟨rfl, _⟩
    exact Iff.rfl
  leftOutput := state.output
  rightOutput := state.output
  leftTexts := state.store.texts
  rightTexts := rightTexts

section

variable {matching : Matching} {state other : State} {rightTexts : Nat}

theorem inPlace_scopes {left right : ScopeId} :
    (inPlace matching state rightTexts).Scopes left right ↔ left = right := by
  constructor
  · rintro (⟨same, _⟩ | ⟨count, rfl, rfl⟩)
    · exact same
    · rfl
  · rintro rfl
    by_cases old : left.index < state.size
    · exact .inl ⟨rfl, old⟩
    · have index : left.index = state.size + (left.index - state.size) := by omega
      exact .inr ⟨left.index - state.size, congrArg ScopeId.mk index, congrArg ScopeId.mk index⟩

/-- A state corresponds to one with its functions changed if the functions do. -/
theorem inPlace_states_of_scopes {onFunction : Function → Function}
    (scopes : other.store.scopes = state.store.scopes.map (Scope.mapFunctions onFunction))
    (output : other.output = state.output)
    (alike : ∀ function, state.store.Holds function →
      (inPlace matching state other.store.texts).Functions function (onFunction function)) :
    (inPlace matching state other.store.texts).States state other := by
  have sizes : other.size = state.size := by
    unfold State.size
    rw [scopes, Array.size_map]
  refine ⟨⟨0, rfl, sizes⟩, ⟨#[], by simp [inPlace], by simp [inPlace, output]⟩, ⟨rfl, rfl⟩, ?_⟩
  intro left right same
  cases inPlace_scopes.1 same
  rw [Store.scope?, Store.scope?, scopes, Array.getElem?_map, ← Store.scope?]
  cases present : state.store.scope? left with
  | none => exact .none
  | some scope =>
      refine .some ⟨?_, rfl, List.forall₂_map_right_iff.2 (List.forall₂_same.2 ?_), rfl⟩
      · show Option.Rel _ scope.parent scope.parent
        cases scope.parent with
        | none => exact .none
        | some parent => exact .some (inPlace_scopes.2 rfl)
      · refine fun entry bound => ⟨rfl, values_mapFunctions onFunction _ fun function occurs => ?_⟩
        exact alike function ⟨left, scope, present, entry, bound, occurs⟩

/-- A state corresponds to one with the same scopes if the functions in it correspond to
themselves. -/
theorem inPlace_states (scopes : other.store.scopes = state.store.scopes)
    (output : other.output = state.output)
    (alike : ∀ function, state.store.Holds function →
      (inPlace matching state other.store.texts).Functions function function) :
    (inPlace matching state other.store.texts).States state other := by
  have mapped : state.store.scopes.map (Scope.mapFunctions id) = state.store.scopes := by
    rw [show Scope.mapFunctions id = id from funext Scope.mapFunctions_id, Array.map_id]
  exact inPlace_states_of_scopes (scopes.trans mapped.symm) output alike

end

/-- Runs that start with the same lines printed have printed the same lines. -/
theorem States.output_eq (started : likeness.leftOutput = likeness.rightOutput)
    {left right : State} (states : likeness.States left right) : left.output = right.output := by
  obtain ⟨lines, leftPrinted, rightPrinted⟩ := states.printed
  rw [leftPrinted, rightPrinted, started]

/-! ## Outcomes -/

/-- Outcomes of one sort: corresponding values, corresponding faults, or calls nested too deeply in
both runs, and in any case corresponding states. -/
inductive Runs (likeness : Likeness) :
    Except Failure Value × State → Except Failure Value × State → Prop
  | value {left right : Value} {leftAfter rightAfter : State}
      (values : likeness.Values left right) (states : likeness.States leftAfter rightAfter) :
      Runs likeness (.ok left, leftAfter) (.ok right, rightAfter)
  | fault {left right : Fault} {leftAfter rightAfter : State}
      (faults : likeness.Faults left right) (states : likeness.States leftAfter rightAfter) :
      Runs likeness (.error (.fault left), leftAfter) (.error (.fault right), rightAfter)
  | tooDeep {leftAfter rightAfter : State} (states : likeness.States leftAfter rightAfter) :
      Runs likeness (.error .tooDeep, leftAfter) (.error .tooDeep, rightAfter)

theorem Runs.states {left right : Except Failure Value × State} (runs : likeness.Runs left right) :
    likeness.States left.2 right.2 := by
  cases runs <;> assumption

theorem Runs.exists_fault {left right : Except Failure Value × State}
    (runs : likeness.Runs left right) {fault : Fault} (fails : left.1 = .error (.fault fault)) :
    ∃ other, right.1 = .error (.fault other) ∧ likeness.Faults fault other := by
  cases runs with
  | value values states => cases fails
  | fault faults states =>
      cases fails
      exact ⟨_, rfl, faults⟩
  | tooDeep states => cases fails

theorem Similar.runs {leftComputation rightComputation : Evaluation Value}
    (similar : likeness.Similar likeness.Values leftComputation rightComputation)
    {left right : State} (states : likeness.States left right) :
    likeness.Runs (leftComputation.outcome left) (rightComputation.outcome right) := by
  have ends := similar left right states
  rw [Evaluation.outcome_apply, Evaluation.outcome_apply]
  revert ends
  cases leftComputation left <;> cases rightComputation right <;> intro ends
  · cases ends with
    | ok values after => exact .value values after
  · cases ends
  · cases ends
  · cases ends with
    | error stops after =>
        cases stops with
        | tooDeep => exact .tooDeep after
        | fault faults => exact .fault faults after

end Likeness

/-! ## Corresponding values but for their functions -/

namespace Likeness

variable {likeness : Likeness} {onLeft onRight : Function → Function}

mutual

theorem Values.mapFunctions_eq
    (agrees : ∀ {left right}, likeness.Functions left right → onLeft left = onRight right)
    {left right : Value} (values : likeness.Values left right) :
    left.mapFunctions onLeft = right.mapFunctions onRight := by
  match left, right, values with
  | _, _, .null => rfl
  | _, _, .boolean => rfl
  | _, _, .number => rfl
  | _, _, .native => rfl
  | _, _, .function functions => exact congrArg Value.function (agrees functions)
  | _, _, .object properties =>
      exact congrArg (fun entries => Value.object ⟨entries⟩)
        (Properties.mapFunctions_eq agrees properties)

theorem Properties.mapFunctions_eq
    (agrees : ∀ {left right}, likeness.Functions left right → onLeft left = onRight right)
    {left right : List (String × Value)}
    (properties : likeness.Properties left right) :
    Value.mapPropertyFunctions onLeft left = Value.mapPropertyFunctions onRight right := by
  match left, right, properties with
  | _, _, .nil => rfl
  | _, _, .cons values rest =>
      unfold Value.mapPropertyFunctions
      rw [values.mapFunctions_eq agrees, rest.mapFunctions_eq agrees]

end

/-- Corresponding scopes give corresponding values to the same names. -/
theorem Contents.values_mapFunctions_eq
    (agrees : ∀ {left right}, likeness.Functions left right → onLeft left = onRight right)
    {left right : Scope} (contents : likeness.Contents left right) :
    left.values.entries.map (fun entry => (entry.1, entry.2.mapFunctions onLeft)) =
      right.values.entries.map fun entry => (entry.1, entry.2.mapFunctions onRight) := by
  refine List.Forall₂.map_eq contents.values fun {first second} entries => ?_
  rw [entries.1, entries.2.mapFunctions_eq agrees]

/-- Corresponding scopes inside one and the same scope are equal with their functions changed. -/
theorem Contents.mapFunctions_eq
    (agrees : ∀ {left right}, likeness.Functions left right → onLeft left = onRight right)
    {left right : Scope} (contents : likeness.Contents left right)
    (parents : left.parent = right.parent) :
    left.mapFunctions onLeft = right.mapFunctions onRight := by
  unfold Scope.mapFunctions
  rw [parents, contents.depth, contents.values_mapFunctions_eq agrees, contents.constants]

/-- Corresponding states of two runs from one state are equal with their functions changed. -/
theorem inPlace_mapFunctions_eq {matching : Matching} {state : State}
    (agrees : ∀ {left right}, (inPlace matching state state.store.texts).Functions left right →
      onLeft left = onRight right)
    {left right : State}
    (states : (inPlace matching state state.store.texts).States left right) :
    left.mapFunctions onLeft = right.mapFunctions onRight := by
  have scopes : left.store.scopes.map (Scope.mapFunctions onLeft) =
      right.store.scopes.map (Scope.mapFunctions onRight) := by
    refine Array.ext_getElem? fun index => ?_
    rw [Array.getElem?_map, Array.getElem?_map]
    have contents := states.contents ⟨index⟩ ⟨index⟩ (inPlace_scopes.2 rfl)
    refine contents.map_eq fun same => same.mapFunctions_eq agrees ?_
    have parents := same.parent.map_eq fun scopes => inPlace_scopes.1 scopes
    rw [Option.map_id', Option.map_id'] at parents
    exact parents
  have texts : left.store.texts = right.store.texts :=
    states.counted.1.trans states.counted.2.symm
  unfold State.mapFunctions
  rw [scopes, texts, states.output_eq rfl]

end Likeness

end NanoScript
