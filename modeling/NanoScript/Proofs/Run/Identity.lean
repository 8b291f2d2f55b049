import NanoScript.Proofs.Run.Origin

/-!
Contract: two functions are equal exactly if one and the same evaluation of a declaration made them.

Owns:
- the changes of a state, each with the functions that it makes, and histories, which list the
  functions made on the way to a state;
- the birthplace of a function, the scope that binds its name to it for good;
- the functions that are found in the course of a session, in scopes or in the values of runs;
- the theorem that each of them was made once, and that those made at different moments differ.

Equality looks at the name, the body and the scope of a function.  The name and the scope suffice,
because a declaration succeeds only where its name is not declared yet, and makes it a constant.
-/

namespace NanoScript

open Relation

/-! ## Histories -/

/-- A change of a state and the functions that it makes.  Only the evaluation of a declaration makes
one; all other values that are bound contain only functions that some scope holds already. -/
inductive State.Creates : State → List Function → State → Prop
  | print {state : State} (line : String) : Creates state [] (state.print line)
  | addText {state : State} : Creates state [] state.addText
  | declareValue {state : State} {scope : ScopeId} {name : String} {binding : Binding}
      (undeclared : state.store.declares scope name = false)
      (held : ∀ function ∈ binding.value.functions, state.store.Holds function) :
      Creates state [] (state.bind scope name binding)
  | assign {state : State} {scope owner : ScopeId} {name : String} {value : Value}
      (found : state.store.assignable scope name = .ok owner)
      (held : ∀ function ∈ value.functions, state.store.Holds function) :
      Creates state [] (state.bind owner name ⟨value, false⟩)
  | enclose {state : State} {parent : ScopeId} : Creates state [] (state.addEnclosed parent)
  | declareFunction {state after : State} {invoker : Invoker} {scope : ScopeId} {name : String}
      {parameters : List String} {body : List Phrase} {span : Span} {function : Function}
      (present : state.store.Has scope)
      (evaluates : (Phrase.functionDeclaration name parameters body span).evaluate invoker scope
        state = .ok (.function function) after) :
      Creates state [function] after

/-- The functions that were made, in this order, on the way from the start to a state. -/
inductive State.Made : List Function → State → Prop
  | start : Made [] State.initial.2
  | change {history created : List Function} {before after : State} (made : Made history before)
      (creates : State.Creates before created after) : Made (history ++ created) after

/-- The scope that a function sees binds its name to it, as a constant. -/
def Store.Bears (store : Store) (function : Function) : Prop :=
  store.binding? function.closure function.name = some ⟨.function function, true⟩

variable {before after state : State} {created history : List Function} {function : Function}

theorem Store.Bears.holds {store : Store} (bears : store.Bears function) :
    store.Holds function := by
  obtain ⟨scope, present, listed⟩ := Store.mem_values_of_binding? bears
  exact ⟨_, scope, present, _, listed, List.mem_singleton.2 rfl⟩

/-- A declaration that succeeds binds a name that was free to the function that it makes. -/
theorem Phrase.evaluate_functionDeclaration_eq_ok {invoker : Invoker} {scope : ScopeId}
    {name : String} {parameters : List String} {body : List Phrase} {span : Span}
    (evaluates : (Phrase.functionDeclaration name parameters body span).evaluate invoker scope
      state = .ok (.function function) after) :
    function = ⟨name, parameters, body, ⟨invoker.text, span⟩, scope⟩ ∧
      state.store.declares scope name = false ∧
      after = state.bind scope name ⟨.function function, true⟩ := by
  unfold Phrase.evaluate at evaluates
  rw [Evaluation.declare_apply] at evaluates
  split at evaluates
  · cases evaluates
  · next undeclared =>
      cases evaluates
      exact ⟨rfl, Bool.eq_false_iff.2 undeclared, rfl⟩

namespace State.Creates

/-- A constant stays what it is. -/
theorem binding? (creates : Creates before created after) {id : ScopeId} {name : String}
    {value : Value} (bound : before.store.binding? id name = some ⟨value, true⟩) :
    after.store.binding? id name = some ⟨value, true⟩ := by
  cases creates with
  | print line => exact bound
  | addText => exact bound
  | declareValue undeclared held => exact Store.binding?_bind_of_undeclared undeclared bound
  | enclose => exact Store.binding?_addEnclosed bound
  | declareFunction present evaluates =>
      obtain ⟨_, undeclared, rfl⟩ := Phrase.evaluate_functionDeclaration_eq_ok evaluates
      exact Store.binding?_bind_of_undeclared undeclared bound
  | assign found held =>
      obtain ⟨_, older, boundOwner, notConstant⟩ := Store.assignable_eq_ok found
      refine (Store.binding?_bind_of_elsewhere ?_).trans bound
      rintro ⟨rfl, rfl⟩
      cases bound.symm.trans boundOwner
      cases notConstant

theorem has (creates : Creates before created after) {id : ScopeId}
    (present : before.store.Has id) : after.store.Has id := by
  cases creates with
  | print line => exact present
  | addText => exact present
  | declareValue undeclared held => exact Store.has_bind.2 present
  | assign found held => exact Store.has_bind.2 present
  | enclose => exact Store.has_addEnclosed.2 (.inl present)
  | declareFunction _ evaluates =>
      obtain ⟨_, _, rfl⟩ := Phrase.evaluate_functionDeclaration_eq_ok evaluates
      exact Store.has_bind.2 present

/-- What is made is new: its name was free in its scope, and is not any more. -/
theorem made (creates : Creates before created after) (member : function ∈ created) :
    before.store.declares function.closure function.name = false ∧ after.store.Bears function := by
  cases creates with
  | print | addText | declareValue | assign | enclose => cases member
  | declareFunction present evaluates =>
      obtain ⟨rfl, undeclared, rfl⟩ := Phrase.evaluate_functionDeclaration_eq_ok evaluates
      cases List.mem_singleton.1 member
      refine ⟨undeclared, ?_⟩
      exact Store.binding?_bind_self present _ fun _ => rfl

/-- A function that is held was held before or has just been made. -/
theorem held (creates : Creates before created after) (isHeld : after.store.Holds function) :
    before.store.Holds function ∨ function ∈ created := by
  cases creates with
  | print line => exact .inl isHeld
  | addText => exact .inl isHeld
  | enclose => exact .inl (isHeld.of_push rfl)
  | declareValue undeclared held =>
      exact .inl (isHeld.of_bind.elim (held function) id)
  | assign found held =>
      exact .inl (isHeld.of_bind.elim (held function) id)
  | declareFunction present evaluates =>
      obtain ⟨_, _, rfl⟩ := Phrase.evaluate_functionDeclaration_eq_ok evaluates
      exact isHeld.of_bind.symm

end State.Creates

/-- A single change makes at most one function. -/
theorem State.Creates.pairwise (creates : State.Creates before created after)
    (relation : Function → Function → Prop) : created.Pairwise relation := by
  cases creates with
  | print | addText | declareValue | assign | enclose => exact .nil
  | declareFunction => exact List.pairwise_singleton ..

namespace State.Made

/-- Every function that is held was made. -/
theorem mem_of_holds (made : Made history state) (isHeld : state.store.Holds function) :
    function ∈ history := by
  induction made with
  | start => exact absurd isHeld (State.not_holds_initial function)
  | change _ creates inductionHypothesis =>
      apply List.mem_append.2
      exact (creates.held isHeld).imp_left inductionHypothesis

/-- Every function that was made is bound at its birthplace. -/
theorem bears_of_mem (made : Made history state) (member : function ∈ history) :
    state.store.Bears function := by
  induction made with
  | start => cases member
  | change _ creates inductionHypothesis =>
      rcases List.mem_append.1 member with older | new
      · exact creates.binding? (inductionHypothesis older)
      · exact (creates.made new).2

theorem has_global (made : Made history state) : state.store.Has State.initial.1 := by
  induction made with
  | start => decide
  | change _ creates inductionHypothesis => exact creates.has inductionHypothesis

/-- No two functions that were made have the name and the scope in common. -/
theorem pairwise_differ (made : Made history state) :
    history.Pairwise fun earlier later =>
      ¬ (earlier.name = later.name ∧ earlier.closure = later.closure) := by
  induction made with
  | start => exact .nil
  | change made creates inductionHypothesis =>
      refine List.pairwise_append.2 ⟨inductionHypothesis, creates.pairwise _, ?_⟩
      intro earlier older later new
      -- The name of the earlier one is taken in its scope, that of the later one was still free.
      have taken := made.bears_of_mem older
      have free := (creates.made new).1
      rintro ⟨sameName, sameScope⟩
      rw [← sameName, ← sameScope, Store.declares, taken] at free
      cases free

/-- Functions that were made and have the name and the scope in common were made at one moment. -/
theorem moment_unique (made : Made history state) {left right : Function} {first second : Nat}
    (atFirst : history[first]? = some left) (atSecond : history[second]? = some right)
    (sameName : left.name = right.name) (sameScope : left.closure = right.closure) :
    first = second := by
  obtain ⟨firstBelow, rfl⟩ := List.getElem?_eq_some_iff.1 atFirst
  obtain ⟨secondBelow, rfl⟩ := List.getElem?_eq_some_iff.1 atSecond
  have differ := List.pairwise_iff_getElem.1 made.pairwise_differ
  rcases Nat.lt_trichotomy first second with before | equal | behind
  · exact absurd ⟨sameName, sameScope⟩ (differ first second firstBelow secondBelow before)
  · exact equal
  · exact absurd ⟨sameName.symm, sameScope.symm⟩
      (differ second first secondBelow firstBelow behind)

/-- Functions that were made are equal exactly if they were made at the same moment. -/
theorem sameDeclaration_iff (made : Made history state) {left right : Function} {first second : Nat}
    (atFirst : history[first]? = some left) (atSecond : history[second]? = some right) :
    left.sameDeclaration right = true ↔ first = second := by
  rw [Function.sameDeclaration, decide_eq_true_iff]
  constructor
  · rintro ⟨sameName, _, sameScope⟩
    exact made.moment_unique atFirst atSecond sameName sameScope
  · rintro rfl
    cases atFirst.symm.trans atSecond
    exact ⟨rfl, rfl, rfl⟩

end State.Made

/-! ## Evaluation -/

/-- The evaluations that make functions by declarations only, and meet functions that are bound at
their birthplaces. -/
def Regime.declarations : Regime where
  Admits state := ∀ function, state.store.Holds function → state.store.Bears function
  Knows state value := ∀ function ∈ value.functions, state.store.Bears function
  Fits state scope _ := state.store.Has scope
  Opens state _ scope := state.store.Has scope
  Calls _ _ _ := True
  Uses _ := True
  Allows _ := True
  Change before after := ∃ created, State.Creates before created after
  admits := by
    rintro before after ⟨created, creates⟩ born function isHeld
    rcases creates.held isHeld with older | new
    · exact creates.binding? (born function older)
    · exact (creates.made new).2
  knows change known function member :=
    change.elim fun _ creates => creates.binding? (known function member)
  fits change present := change.elim fun _ creates => creates.has present
  opens change present := change.elim fun _ creates => creates.has present
  within _ uses := uses
  plain isPlain := Value.forall_functions_of_isPlain isPlain
  empty := nofun
  insert key object value := Value.forall_functions_insert key object value
  property object found := Value.forall_functions_property object found
  seen present := present
  part present _ _ := present
  block present := present
  head present := present
  next present _ := present
  read born _ found := fun function member => born function (Store.holds_of_lookup found member)
  declareVariable _ _ undeclared known :=
    ⟨[], .declareValue undeclared fun function member => (known function member).holds⟩
  declareFunction {state scope name parameters body span} text _ present undeclared := by
    have evaluates : (Phrase.functionDeclaration name parameters body span).evaluate
        ((Invoker.upTo Host.standard 0).within text) scope state =
          .ok (.function ⟨name, parameters, body, ⟨text, span⟩, scope⟩)
            (state.bind scope name
              ⟨.function ⟨name, parameters, body, ⟨text, span⟩, scope⟩, true⟩) := by
      rw [Phrase.evaluate, Evaluation.declare_apply, undeclared]
      rfl
    have creates := State.Creates.declareFunction present evaluates
    refine ⟨⟨_, creates⟩, fun function member => ?_⟩
    rw [List.mem_singleton.1 member]
    exact (creates.made (.head _)).2
  assign _ _ _ found known :=
    ⟨[], .assign found fun function member => (known function member).holds⟩
  enclose {state function} _ _ :=
    ⟨⟨[], .enclose⟩, state.has_size_addEnclosed function.closure⟩
  parameter _ _ undeclared known :=
    ⟨[], .declareValue undeclared fun function member => (known function member).holds⟩
  body present _ _ := present
  call _ _ _ _ _ := trivial
  tooDeep := trivial
  raises _ _ _ := trivial
  arity _ _ := trivial
  repeated _ _ := trivial

theorem Store.Bears.grown (bears : before.store.Bears function)
    (grown : Regime.declarations.Grown before after) : after.store.Bears function := by
  have known : Regime.declarations.Knows before (.function function) :=
    List.forall_mem_singleton.2 bears
  exact grown.knows known function (List.mem_singleton.2 rfl)

theorem State.Made.admits (made : State.Made history state) :
    Regime.declarations.Admits state :=
  fun _ isHeld => made.bears_of_mem (made.mem_of_holds isHeld)

theorem State.Made.grown (made : State.Made history before)
    (grown : Regime.declarations.Grown before after) :
    ∃ more, State.Made (history ++ more) after := by
  induction grown with
  | refl => exact ⟨[], by simpa using made⟩
  | tail _ change inductionHypothesis =>
      obtain ⟨more, stillMade⟩ := inductionHypothesis
      obtain ⟨created, creates⟩ := change
      exact ⟨more ++ created, by simpa using stillMade.change creates⟩

/-! ## Sessions -/

theorem run_declarations (depth : Nat) (source : String) (made : State.Made history state) :
    Regime.declarations.Grown state
        (run (Invoker.upTo Host.standard depth) source State.initial.1 state).2 ∧
      ∀ value, (run (Invoker.upTo Host.standard depth) source State.initial.1 state).1 = .ok value →
        ∀ function ∈ value.functions,
          (run (Invoker.upTo Host.standard depth) source State.initial.1 state).2.store.Bears
            function := by
  have covers : Regime.declarations.Covers Host.standard :=
    Regime.covers_standard fun line => Exists.intro [] (State.Creates.print line)
  cases reads : Phrase.ofSource source with
  | error error =>
      rw [run_of_fails _ reads]
      exact ⟨.refl, fun value isOk => nomatch isOk⟩
  | ok program =>
      have counted : Regime.declarations.Grown state state.addText := .single ⟨[], .addText⟩
      have trusts := (covers.trusts (fun _ => trivial) depth).within state.store.texts
      have ends := Phrase.evaluate_follows trusts program (counted.fits made.has_global)
        state.addText .refl (counted.admits made.admits)
      rw [run_of_reads _ reads]
      exact ⟨counted.trans ends.grown, fun value isOk => (ends.gives isOk).1⟩

theorem State.afterRuns_concat (invoker : Invoker) (earlier : List String) (source : String) :
    State.afterRuns invoker (earlier ++ [source]) =
      (run invoker source State.initial.1 (State.afterRuns invoker earlier)).2 := by
  simp [State.afterRuns]

/-- The history of a session goes on with every further run. -/
theorem State.exists_made_afterRuns (depth : Nat) (sources : List String) :
    ∃ history, State.Made history (State.afterRuns (Invoker.upTo Host.standard depth) sources) := by
  induction sources using List.reverseRecOn with
  | nil => exact ⟨[], .start⟩
  | append_singleton earlier source inductionHypothesis =>
      obtain ⟨history, made⟩ := inductionHypothesis
      obtain ⟨more, later⟩ := made.grown (run_declarations depth source made).1
      rw [State.afterRuns_concat]
      exact ⟨history ++ more, later⟩

theorem State.grown_afterRuns (depth : Nat) (earlier rest : List String) :
    Regime.declarations.Grown (State.afterRuns (Invoker.upTo Host.standard depth) earlier)
      (State.afterRuns (Invoker.upTo Host.standard depth) (earlier ++ rest)) := by
  induction rest using List.reverseRecOn with
  | nil => rw [List.append_nil]
  | append_singleton rest source inductionHypothesis =>
      obtain ⟨history, made⟩ := State.exists_made_afterRuns depth (earlier ++ rest)
      rw [← List.append_assoc, State.afterRuns_concat]
      exact inductionHypothesis.trans (run_declarations depth source made).1

/-- A function is found in the course of a session: bound in a scope after some of the runs, as a
value or inside one, or in the value that one of the runs gives. -/
inductive State.FoundDuring (invoker : Invoker) (sources : List String) (function : Function) : Prop
  | held {earlier rest : List String} (split : sources = earlier ++ rest)
      (isHeld : (State.afterRuns invoker earlier).store.Holds function)
  | returned {earlier rest : List String} {source : String} {value : Value}
      (split : sources = earlier ++ [source] ++ rest)
      (returns : (run invoker source State.initial.1 (State.afterRuns invoker earlier)).1 =
        .ok value)
      (member : function ∈ value.functions)

/-- Whatever was found once is bound at its birthplace to the end of the session. -/
theorem State.FoundDuring.bears {depth : Nat} {sources : List String}
    (found : State.FoundDuring (Invoker.upTo Host.standard depth) sources function) :
    (State.afterRuns (Invoker.upTo Host.standard depth) sources).store.Bears function := by
  cases found with
  | @held earlier rest split isHeld =>
      subst split
      obtain ⟨history, made⟩ := State.exists_made_afterRuns depth earlier
      exact Store.Bears.grown (made.admits function isHeld)
        (State.grown_afterRuns depth earlier rest)
  | @returned earlier rest source value split returns member =>
      subst split
      obtain ⟨history, made⟩ := State.exists_made_afterRuns depth earlier
      have bears := (run_declarations depth source made).2 value returns function member
      rw [← State.afterRuns_concat] at bears
      exact bears.grown (State.grown_afterRuns depth (earlier ++ [source]) rest)

/-! ## Identity -/

/-- Functions stem from the moments of a history at which they were made, and are equal exactly if
these moments are the same.  Equality never hides a difference in parameters or bodies, and whatever
test of bodies stands in it, one that each body passes with itself, it comes out the same. -/
structure State.Identifies (history : List Function) (found : Function → Prop) : Prop where
  stems : ∀ function, found function → ∃ moment : Nat, history[moment]? = some function
  moments : ∀ (left right : Function) (first second : Nat), history[first]? = some left →
    history[second]? = some right →
      ((Value.function left).equals (.function right) = true ↔ first = second)
  whole : ∀ left right, found left → found right →
    (Value.function left).equals (.function right) = true → left = right
  bodies : ∀ sameBody : Function → Function → Prop, (∀ function, sameBody function function) →
    ∀ left right, found left → found right →
      ((left.name = right.name ∧ sameBody left right ∧ left.closure = right.closure) ↔
        (Value.function left).equals (.function right) = true)

/-- In every session, functions are equal exactly if one evaluation of a declaration made both, and
evaluations that succeed at different moments never make equal functions. -/
theorem State.functions_identified (depth : Nat) (sources : List String) :
    (∃ history,
      State.Made history (State.afterRuns (Invoker.upTo Host.standard depth) sources)) ∧
    ∀ history, State.Made history (State.afterRuns (Invoker.upTo Host.standard depth) sources) →
      State.Identifies history
        (State.FoundDuring (Invoker.upTo Host.standard depth) sources) := by
  refine ⟨State.exists_made_afterRuns depth sources, fun history made => ?_⟩
  have stems : ∀ function,
      State.FoundDuring (Invoker.upTo Host.standard depth) sources function →
        ∃ moment : Nat, history[moment]? = some function :=
    fun function found => List.mem_iff_getElem?.1 (made.mem_of_holds found.bears.holds)
  have moments : ∀ (left right : Function) (first second : Nat), history[first]? = some left →
      history[second]? = some right →
        ((Value.function left).equals (.function right) = true ↔ first = second) := by
    intro left right first second atFirst atSecond
    rw [Value.equals]
    exact made.sameDeclaration_iff atFirst atSecond
  have whole : ∀ left right,
      State.FoundDuring (Invoker.upTo Host.standard depth) sources left →
        State.FoundDuring (Invoker.upTo Host.standard depth) sources right →
          (Value.function left).equals (.function right) = true → left = right := by
    intro left right foundLeft foundRight equal
    obtain ⟨first, atFirst⟩ := stems left foundLeft
    obtain ⟨second, atSecond⟩ := stems right foundRight
    have same := (moments left right first second atFirst atSecond).1 equal
    subst same
    exact Option.some.inj (atFirst.symm.trans atSecond)
  refine ⟨stems, moments, whole, fun sameBody reflexive left right foundLeft foundRight => ?_⟩
  constructor
  · rintro ⟨sameName, _, sameScope⟩
    obtain ⟨first, atFirst⟩ := stems left foundLeft
    obtain ⟨second, atSecond⟩ := stems right foundRight
    exact (moments left right first second atFirst atSecond).2
      (made.moment_unique atFirst atSecond sameName sameScope)
  · intro equal
    have same := whole left right foundLeft foundRight equal
    subst same
    exact ⟨rfl, reflexive left, rfl⟩

/-- A session in which a function that declares another one is called twice. -/
def State.twoCalls : List String :=
  ["fn f(a) { fn g(b) { a } g } f(1)", "f(1)"]

/-- The names, parameters and scopes of the functions in a value. -/
def Value.signatures (value : Value) : List (String × List String × ScopeId) :=
  value.functions.map fun function => (function.name, function.parameters, function.closure)

theorem Value.exists_function_of_signatures {result : Except Failure Value}
    {signature : String × List String × ScopeId}
    (shows : result.map Value.signatures = .ok [signature]) :
    ∃ value, result = .ok value ∧ ∃ function ∈ value.functions,
      (function.name, function.parameters, function.closure) = signature := by
  cases result with
  | error failure => cases shows
  | ok value =>
      obtain ⟨function, isOnly, described⟩ := List.map_eq_singleton_iff.1 (Except.ok.inj shows)
      exact ⟨value, rfl, function, by simp [isOnly], described⟩

/-- The two calls evaluate one and the same declaration, and yet make two functions. -/
theorem State.functions_of_two_calls_differ :
    ∃ left right : Function,
      State.FoundDuring (Invoker.upTo Host.standard 1) State.twoCalls left ∧
      State.FoundDuring (Invoker.upTo Host.standard 1) State.twoCalls right ∧
      left.name = right.name ∧ left.parameters = right.parameters ∧
      (Value.function left).equals (.function right) = false ∧
      ∃ history,
        State.Made history (State.afterRuns (Invoker.upTo Host.standard 1) State.twoCalls) ∧
        ∃ first second : Nat, history[first]? = some left ∧ history[second]? = some right ∧
          first ≠ second := by
  have firstRun : ((run (Invoker.upTo Host.standard 1) "fn f(a) { fn g(b) { a } g } f(1)"
      State.initial.1 (State.afterRuns (Invoker.upTo Host.standard 1) [])).1.map
        Value.signatures) = .ok [("g", ["b"], ⟨1⟩)] := by decide +kernel
  have secondRun : ((run (Invoker.upTo Host.standard 1) "f(1)" State.initial.1
      (State.afterRuns (Invoker.upTo Host.standard 1) ["fn f(a) { fn g(b) { a } g } f(1)"])).1.map
        Value.signatures) = .ok [("g", ["b"], ⟨2⟩)] := by decide +kernel
  obtain ⟨_, returnsLeft, left, inLeft, isLeft⟩ := Value.exists_function_of_signatures firstRun
  obtain ⟨_, returnsRight, right, inRight, isRight⟩ :=
    Value.exists_function_of_signatures secondRun
  have foundLeft : State.FoundDuring (Invoker.upTo Host.standard 1) State.twoCalls left :=
    .returned rfl returnsLeft inLeft
  have foundRight : State.FoundDuring (Invoker.upTo Host.standard 1) State.twoCalls right :=
    .returned rfl returnsRight inRight
  simp only [Prod.mk.injEq] at isLeft isRight
  have differ : (Value.function left).equals (.function right) = false := by
    simp [Value.equals, Function.sameDeclaration, isLeft, isRight]
  obtain ⟨⟨history, made⟩, identified⟩ := State.functions_identified 1 State.twoCalls
  have identifies := identified history made
  obtain ⟨first, atFirst⟩ := identifies.stems left foundLeft
  obtain ⟨second, atSecond⟩ := identifies.stems right foundRight
  refine ⟨left, right, foundLeft, foundRight, by simp [isLeft, isRight],
    by simp [isLeft, isRight], differ, history, made, first, second, atFirst, atSecond, ?_⟩
  intro same
  have equal := (identifies.moments left right first second atFirst atSecond).2 same
  rw [differ] at equal
  cases equal

end NanoScript
