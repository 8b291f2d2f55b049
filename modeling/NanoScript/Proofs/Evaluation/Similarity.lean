import NanoScript.Host.Standard
import NanoScript.Proofs.Evaluation.Likeness

/-!
Contract: corresponding phrases evaluate alike in corresponding states.

Owns:
- computations that run alike under a likeness, and how they combine;
- the theorem for phrases, by induction on the phrase of the left run, under invokers that run
  corresponding functions alike;
- hosts that respect a likeness, and the theorem for their invokers, by induction on the depth of
  calls; the standard host respects every likeness.
-/

namespace NanoScript

namespace Likeness

variable {α β γ δ : Type} {likeness : Likeness}

/-- Outcomes of one sort: corresponding results or corresponding failures, and in either case
corresponding states. -/
inductive Ends (likeness : Likeness) (results : α → β → Prop) :
    EStateM.Result Stop State α → EStateM.Result Stop State β → Prop
  | ok {left : α} {right : β} {leftAfter rightAfter : State} (same : results left right)
      (states : likeness.States leftAfter rightAfter) :
      Ends likeness results (.ok left leftAfter) (.ok right rightAfter)
  | error {left right : Stop} {leftAfter rightAfter : State} (same : likeness.Stops left right)
      (states : likeness.States leftAfter rightAfter) :
      Ends likeness results (.error left leftAfter) (.error right rightAfter)

/-- In corresponding states two computations end alike. -/
def Similar (likeness : Likeness) (results : α → β → Prop) (left : Evaluation α)
    (right : Evaluation β) : Prop :=
  ∀ leftState rightState, likeness.States leftState rightState →
    likeness.Ends results (left leftState) (right rightState)

/-! ## Combining computations -/

theorem similar_pure {results : α → β → Prop} {left : α} {right : β} (same : results left right) :
    likeness.Similar results (pure left) (pure right) :=
  fun _ _ states => .ok same states

theorem similar_fail {results : α → β → Prop} {left right : Fault}
    (same : likeness.Faults left right) :
    likeness.Similar results (Evaluation.fail left) (Evaluation.fail right) :=
  fun _ _ states => .error (.fault same) states

theorem similar_tooDeep {results : α → β → Prop} :
    likeness.Similar results (throw .tooDeep) (throw .tooDeep) :=
  fun _ _ states => .error .tooDeep states

theorem Similar.bind {results : α → β → Prop} {lastResults : γ → δ → Prop}
    {left : Evaluation α} {right : Evaluation β} {leftNext : α → Evaluation γ}
    {rightNext : β → Evaluation δ} (similar : likeness.Similar results left right)
    (goesOn : ∀ {leftResult rightResult}, results leftResult rightResult →
      likeness.Similar lastResults (leftNext leftResult) (rightNext rightResult)) :
    likeness.Similar lastResults (left >>= leftNext) (right >>= rightNext) := by
  intro leftState rightState states
  have ends := similar leftState rightState states
  rw [Evaluation.bind_apply, Evaluation.bind_apply]
  revert ends
  cases left leftState <;> cases right rightState <;> intro ends
  · cases ends with
    | ok same after => exact goesOn same _ _ after
  · cases ends
  · cases ends
  · cases ends with
    | error same after => exact .error same after

/-! ## Primitive computations -/

section

variable {leftScope rightScope : ScopeId} {leftSpan rightSpan : Span}

theorem similar_lookup (scopes : likeness.Scopes leftScope rightScope) (name : String)
    (places : likeness.places leftSpan rightSpan) :
    likeness.Similar likeness.Values (Evaluation.lookup leftScope name leftSpan)
      (Evaluation.lookup rightScope name rightSpan) := by
  intro left right states
  rw [Evaluation.lookup_apply, Evaluation.lookup_apply]
  rcases states.lookup scopes name with
    ⟨_, _, leftFound, rightFound, values⟩ | ⟨_, leftFails, rightFails⟩
  · rw [leftFound, rightFound]
    exact .ok values states
  · rw [leftFails, rightFails]
    exact .error (.fault (.scope places)) states

theorem similar_declare (scopes : likeness.Scopes leftScope rightScope) (name : String)
    {leftValue rightValue : Value} (values : likeness.Values leftValue rightValue)
    (constant : Bool) (places : likeness.places leftSpan rightSpan) :
    likeness.Similar likeness.Values
      (Evaluation.declare leftScope name leftValue constant leftSpan)
      (Evaluation.declare rightScope name rightValue constant rightSpan) := by
  intro left right states
  rw [Evaluation.declare_apply, Evaluation.declare_apply, states.declares scopes name]
  split
  · exact .error (.fault (.scope places)) states
  · exact .ok values (states.bind scopes name ⟨values, rfl⟩)

theorem similar_assign (scopes : likeness.Scopes leftScope rightScope) (name : String)
    {leftValue rightValue : Value} (values : likeness.Values leftValue rightValue)
    (places : likeness.places leftSpan rightSpan) :
    likeness.Similar likeness.Values (Evaluation.assign leftScope name leftValue leftSpan)
      (Evaluation.assign rightScope name rightValue rightSpan) := by
  intro left right states
  rw [Evaluation.assign_apply, Evaluation.assign_apply]
  rcases states.assignable scopes name with
    ⟨_, _, leftFound, rightFound, owners⟩ | ⟨_, leftFails, rightFails⟩
  · rw [leftFound, rightFound]
    exact .ok values (states.bind owners name ⟨values, rfl⟩)
  · rw [leftFails, rightFails]
    exact .error (.fault (.scope places)) states

theorem similar_declareAll (scopes : likeness.Scopes leftScope rightScope)
    (places : likeness.places leftSpan rightSpan) (names : List String)
    {leftValues rightValues : List Value}
    (values : List.Forall₂ likeness.Values leftValues rightValues) :
    likeness.Similar (fun _ _ => True)
      (Evaluation.declareAll leftScope leftSpan (names.zip leftValues))
      (Evaluation.declareAll rightScope rightSpan (names.zip rightValues)) := by
  induction values generalizing names with
  | nil =>
      rw [List.zip_nil_right]
      exact similar_pure trivial
  | @cons leftValue rightValue _ _ heads _ inductionHypothesis =>
      cases names with
      | nil => exact similar_pure trivial
      | cons name names =>
          have first : likeness.Similar (fun _ _ => True)
              (Evaluation.bindWhere (fun store => store.declarable leftScope name) name
                ⟨leftValue, false⟩ leftSpan)
              (Evaluation.bindWhere (fun store => store.declarable rightScope name) name
                ⟨rightValue, false⟩ rightSpan) := by
            intro left right states
            rw [Evaluation.bindWhere_apply, Evaluation.bindWhere_apply, Store.declarable,
              Store.declarable, states.declares scopes name]
            cases right.store.declares rightScope name with
            | true => exact .error (.fault (.scope places)) states
            | false => exact .ok trivial (states.bind scopes name ⟨heads, rfl⟩)
          exact first.bind fun _ => inductionHypothesis names

theorem similar_addEnclosed (scopes : likeness.Scopes leftScope rightScope) :
    likeness.Similar likeness.Scopes (Evaluation.addEnclosed leftScope)
      (Evaluation.addEnclosed rightScope) :=
  fun _ _ states => .ok states.next (states.addEnclosed scopes)

/-! ## Rules of evaluation -/

theorem similar_arithmetic (operator : Operator) (left right : Number)
    (places : likeness.places leftSpan rightSpan) :
    likeness.Similar likeness.Values (Evaluation.arithmetic operator left right leftSpan)
      (Evaluation.arithmetic operator left right rightSpan) := by
  have number : ∀ result, likeness.Similar likeness.Values
      (pure (.number result) : Evaluation Value) (pure (.number result)) :=
    fun result => similar_pure .number
  unfold Evaluation.arithmetic
  cases operator with
  | add => exact number _
  | subtract => exact number _
  | multiply => exact number _
  | divide =>
      dsimp only
      split
      · exact similar_fail (.divisionByZero places)
      · exact number _
  | modulo =>
      dsimp only
      split
      · exact similar_fail (.divisionByZero places)
      · exact number _

theorem similar_operate (operator : Operator) {leftFirst rightFirst leftSecond rightSecond : Value}
    (firsts : likeness.Values leftFirst rightFirst)
    (seconds : likeness.Values leftSecond rightSecond)
    (places : likeness.places leftSpan rightSpan) :
    likeness.Similar likeness.Values
      (Evaluation.operate operator leftFirst leftSecond leftSpan)
      (Evaluation.operate operator rightFirst rightSecond rightSpan) := by
  cases firsts with
  | number =>
      cases seconds with
      | number => exact similar_arithmetic operator _ _ places
      | _ => exact similar_pure .null
  | _ => exact similar_pure .null

theorem similar_propertyKey {leftKey rightKey : Value} (keys : likeness.Values leftKey rightKey)
    (places : likeness.places leftSpan rightSpan) :
    likeness.Similar (· = ·) (Evaluation.propertyKey leftKey leftSpan)
      (Evaluation.propertyKey rightKey rightSpan) := by
  cases keys with
  | number => exact similar_pure rfl
  | boolean => exact similar_pure rfl
  | _ => exact similar_fail (.invalidPropertyKey places)

theorem similar_readProperty {leftObject rightObject : Value}
    (objects : likeness.Values leftObject rightObject) (key : String)
    (places : likeness.places leftSpan rightSpan) :
    likeness.Similar likeness.Values (Evaluation.readProperty leftObject key leftSpan)
      (Evaluation.readProperty rightObject key rightSpan) := by
  cases objects with
  | @object left right properties =>
      have tables : Table.Alike likeness.Values ⟨left⟩ ⟨right⟩ := properties_iff.1 properties
      have found := tables.find? key
      unfold Evaluation.readProperty
      dsimp only
      revert found
      cases Table.find? _ key <;> cases Table.find? _ key <;> intro found
      · exact similar_pure .null
      · cases found
      · cases found
      · cases found with
        | some same => exact similar_pure same
  | _ => exact similar_fail (.notAnObject places)

/-! ## Calls -/

/-- Invokers under which corresponding functions run alike. -/
structure Trusts (likeness : Likeness) (left right : Invoker) : Prop where
  function : ∀ {leftFunction rightFunction leftArguments rightArguments leftSpan rightSpan},
    likeness.Functions leftFunction rightFunction →
      List.Forall₂ likeness.Values leftArguments rightArguments →
        likeness.places leftSpan rightSpan →
          likeness.Similar likeness.Values (left.function leftFunction leftArguments leftSpan)
            (right.function rightFunction rightArguments rightSpan)
  native : ∀ {leftArguments rightArguments leftScope rightScope} function,
    List.Forall₂ likeness.Values leftArguments rightArguments →
      likeness.Scopes leftScope rightScope →
        likeness.Similar likeness.Values (left.native function leftArguments leftScope)
          (right.native function rightArguments rightScope)

/-- In which texts phrases stand has no say in how functions run. -/
theorem Trusts.within {left right : Invoker} (trusts : likeness.Trusts left right)
    (leftText rightText : Nat) :
    likeness.Trusts (left.within leftText) (right.within rightText) :=
  ⟨trusts.function, trusts.native⟩

theorem similar_callValue {left right : Invoker} (trusts : likeness.Trusts left right)
    {leftFunction rightFunction : Value} {leftArguments rightArguments : List Value}
    {leftCallee rightCallee : Span} (scopes : likeness.Scopes leftScope rightScope)
    (functions : likeness.Values leftFunction rightFunction)
    (arguments : List.Forall₂ likeness.Values leftArguments rightArguments)
    (calleePlaces : likeness.places leftCallee rightCallee)
    (places : likeness.places leftSpan rightSpan) :
    likeness.Similar likeness.Values
      (Evaluation.callValue left leftScope leftFunction leftArguments leftCallee leftSpan)
      (Evaluation.callValue right rightScope rightFunction rightArguments rightCallee
        rightSpan) := by
  cases functions with
  | function same => exact trusts.function same arguments places
  | native => exact trusts.native _ arguments scopes
  | _ => exact similar_fail (.notAFunction calleePlaces)

end

end Likeness

/-! ## Phrases -/

section

variable {likeness : Likeness} {leftInvoker rightInvoker : Invoker}

mutual

theorem Phrase.evaluate_similar (trusts : likeness.Trusts leftInvoker rightInvoker)
    {leftScope rightScope : ScopeId} (scopes : likeness.Scopes leftScope rightScope)
    (left : Phrase) {right : Phrase}
    (alike : likeness.phrases leftInvoker.text rightInvoker.text left right) :
    likeness.Similar likeness.Values (left.evaluate leftInvoker leftScope)
      (right.evaluate rightInvoker rightScope) := by
  match left, right, likeness.layer alike with
  | .program body _, _, .program bodies _ =>
      exact Phrase.evaluateBlock_similar trusts scopes body bodies .null
  | .variableDeclaration name none constant _, _, .variableDeclaration .none places =>
      exact Likeness.similar_declare scopes name .null constant (likeness.reported places)
  | .variableDeclaration name (some value) constant _, _,
      .variableDeclaration (.some values) places =>
      refine (Phrase.evaluate_similar trusts scopes value values).bind fun results => ?_
      exact Likeness.similar_declare scopes name results constant (likeness.reported places)
  | .functionDeclaration name parameters body span, .functionDeclaration _ _ otherBody otherSpan,
      .functionDeclaration bodies places =>
      have functions : likeness.Functions
          ⟨name, parameters, body, ⟨leftInvoker.text, span⟩, leftScope⟩
          ⟨name, parameters, otherBody, ⟨rightInvoker.text, otherSpan⟩, rightScope⟩ :=
        ⟨rfl, rfl, bodies, places, scopes⟩
      exact Likeness.similar_declare scopes name (.function functions) true
        (likeness.reported places)
  | .identifier name _, _, .identifier places =>
      exact Likeness.similar_lookup scopes name (likeness.reported places)
  | .numericLiteral _ _, _, .numericLiteral _ => exact Likeness.similar_pure .number
  | .binary first operator second _, _, .binary firsts seconds places =>
      refine (Phrase.evaluate_similar trusts scopes first firsts).bind fun firstResults => ?_
      refine (Phrase.evaluate_similar trusts scopes second seconds).bind fun secondResults => ?_
      exact Likeness.similar_operate operator firstResults secondResults
        (likeness.reported places)
  | .assignment target value _, .assignment otherTarget _ _, .assignment targets values _ =>
      have targetLayer := likeness.layer targets
      have targetPlaces := likeness.reported targetLayer.span
      unfold Phrase.evaluate
      rw [targetLayer.name?]
      cases otherTarget.name? with
      | none => exact Likeness.similar_fail (.invalidAssignmentTarget targetPlaces)
      | some name =>
          refine (Phrase.evaluate_similar trusts scopes value values).bind fun results => ?_
          exact Likeness.similar_assign scopes name results targetPlaces
  | .objectLiteral entries _, _, .objectLiteral others _ =>
      refine (Entry.evaluateAll_similar trusts scopes entries others
        (Table.alike_empty _)).bind fun tables => ?_
      exact Likeness.similar_pure (Likeness.values_object.2 tables)
  | .call callee arguments _, _, .call callees others places =>
      refine (Phrase.evaluateAll_similar trusts scopes arguments others).bind fun results => ?_
      refine (Phrase.evaluate_similar trusts scopes callee callees).bind fun functions => ?_
      exact Likeness.similar_callValue trusts scopes functions results
        (likeness.reported (likeness.layer callees).span) (likeness.reported places)
  | .member object property computed _, .member _ otherProperty _ _,
      .member objects properties _ =>
      have objectPlaces := likeness.reported (likeness.layer objects).span
      have propertyLayer := likeness.layer properties
      have propertyPlaces := likeness.reported propertyLayer.span
      refine (Phrase.evaluate_similar trusts scopes object objects).bind fun targets => ?_
      cases computed with
      | true =>
          refine (Phrase.evaluate_similar trusts scopes property properties).bind fun keys => ?_
          refine (Likeness.similar_propertyKey keys propertyPlaces).bind fun same => ?_
          subst same
          exact Likeness.similar_readProperty targets _ objectPlaces
      | false =>
          rw [if_neg Bool.false_ne_true, if_neg Bool.false_ne_true, propertyLayer.name?,
            propertyLayer.kind]
          cases otherProperty.name? with
          | none => exact Likeness.similar_fail (.invalidPropertyKey propertyPlaces)
          | some key => exact Likeness.similar_readProperty targets key objectPlaces

theorem Phrase.evaluateBlock_similar (trusts : likeness.Trusts leftInvoker rightInvoker)
    {leftScope rightScope : ScopeId} (scopes : likeness.Scopes leftScope rightScope)
    (left : List Phrase) {right : List Phrase}
    (alike : List.Forall₂ (likeness.phrases leftInvoker.text rightInvoker.text) left right)
    {leftLast rightLast : Value}
    (lasts : likeness.Values leftLast rightLast) :
    likeness.Similar likeness.Values (Phrase.evaluateBlock leftInvoker leftScope leftLast left)
      (Phrase.evaluateBlock rightInvoker rightScope rightLast right) := by
  match left, right, alike with
  | [], _, .nil => exact Likeness.similar_pure lasts
  | statement :: rest, _, .cons heads tails =>
      refine (Phrase.evaluate_similar trusts scopes statement heads).bind fun results => ?_
      exact Phrase.evaluateBlock_similar trusts scopes rest tails results

theorem Phrase.evaluateAll_similar (trusts : likeness.Trusts leftInvoker rightInvoker)
    {leftScope rightScope : ScopeId} (scopes : likeness.Scopes leftScope rightScope)
    (left : List Phrase) {right : List Phrase}
    (alike : List.Forall₂ (likeness.phrases leftInvoker.text rightInvoker.text) left right) :
    likeness.Similar (List.Forall₂ likeness.Values)
      (Phrase.evaluateAll leftInvoker leftScope left)
      (Phrase.evaluateAll rightInvoker rightScope right) := by
  match left, right, alike with
  | [], _, .nil => exact Likeness.similar_pure .nil
  | phrase :: rest, _, .cons heads tails =>
      refine (Phrase.evaluate_similar trusts scopes phrase heads).bind fun first => ?_
      refine (Phrase.evaluateAll_similar trusts scopes rest tails).bind fun others => ?_
      exact Likeness.similar_pure (.cons first others)

theorem Entry.evaluate_similar (trusts : likeness.Trusts leftInvoker rightInvoker)
    {leftScope rightScope : ScopeId} (scopes : likeness.Scopes leftScope rightScope)
    (left : Entry) {right : Entry}
    (alike : Entry.Alike (likeness.phrases leftInvoker.text rightInvoker.text)
      (likeness.spans leftInvoker.text rightInvoker.text) left right) :
    likeness.Similar likeness.Values (left.evaluate leftInvoker leftScope)
      (right.evaluate rightInvoker rightScope) := by
  match left, right, alike with
  | .shorthand key _, _, .shorthand places =>
      exact Likeness.similar_lookup scopes key (likeness.reported places)
  | .shorthand key _, _, .expanded places =>
      exact Likeness.similar_lookup scopes key (likeness.reported places)
  | .keyed _ value _, _, .keyed values => exact Phrase.evaluate_similar trusts scopes value values

theorem Entry.evaluateAll_similar (trusts : likeness.Trusts leftInvoker rightInvoker)
    {leftScope rightScope : ScopeId} (scopes : likeness.Scopes leftScope rightScope)
    (left : List Entry) {right : List Entry}
    (alike : List.Forall₂ (Entry.Alike (likeness.phrases leftInvoker.text rightInvoker.text)
      (likeness.spans leftInvoker.text rightInvoker.text)) left right)
    {leftTable rightTable : Table Value}
    (tables : Table.Alike likeness.Values leftTable rightTable) :
    likeness.Similar (Table.Alike likeness.Values)
      (Entry.evaluateAll leftInvoker leftScope leftTable left)
      (Entry.evaluateAll rightInvoker rightScope rightTable right) := by
  match left, right, alike with
  | [], _, .nil => exact Likeness.similar_pure tables
  | entry :: rest, _, .cons heads tails =>
      refine (Entry.evaluate_similar trusts scopes entry heads).bind fun values => ?_
      refine Entry.evaluateAll_similar trusts scopes rest tails ?_
      rw [← heads.key]
      exact tables.insert entry.key values

end

/-! ## Functions -/

theorem Function.run_similar (trusts : likeness.Trusts leftInvoker rightInvoker)
    {left right : Function} (functions : likeness.Functions left right)
    {leftArguments rightArguments : List Value}
    (arguments : List.Forall₂ likeness.Values leftArguments rightArguments)
    {leftSpan rightSpan : Span} (places : likeness.places leftSpan rightSpan) :
    likeness.Similar likeness.Values (left.run leftInvoker leftArguments leftSpan)
      (right.run rightInvoker rightArguments rightSpan) := by
  unfold Function.run
  rw [functions.name, functions.parameters, arguments.length_eq]
  split
  · exact Likeness.similar_fail (.arityMismatch places)
  · refine (Likeness.similar_addEnclosed functions.closure).bind fun scopes => ?_
    refine (Likeness.similar_declareAll scopes places right.parameters arguments).bind fun _ => ?_
    exact Phrase.evaluateBlock_similar (trusts.within _ _) scopes left.body functions.body .null

/-- The functions of a host run alike on corresponding arguments in corresponding scopes, under all
invokers under which the functions that they call in turn run alike. -/
def Host.Respects (host : Host) (likeness : Likeness) : Prop :=
  ∀ {leftInvoker rightInvoker}, likeness.Trusts leftInvoker rightInvoker →
    ∀ key {leftArguments rightArguments leftScope rightScope},
      List.Forall₂ likeness.Values leftArguments rightArguments →
        likeness.Scopes leftScope rightScope →
          likeness.Similar likeness.Values
            (host.callback key leftInvoker leftArguments leftScope)
            (host.callback key rightInvoker rightArguments rightScope)

/-- Functions that print or do nothing look at no places and call nothing. -/
theorem Host.standard_respects (likeness : Likeness) : Host.standard.Respects likeness := by
  intro leftInvoker rightInvoker _ key leftArguments rightArguments leftScope rightScope arguments _
  unfold Host.standard
  dsimp only
  split
  · intro left right states
    unfold Callback.print
    rw [Likeness.line_eq arguments]
    exact .ok .null (states.print _)
  · exact Likeness.similar_pure .null

theorem Host.Respects.trusts {host : Host} (respects : host.Respects likeness) (depth : Nat) :
    likeness.Trusts (Invoker.upTo host depth) (Invoker.upTo host depth) := by
  induction depth with
  | zero =>
      exact ⟨fun _ _ _ => Likeness.similar_tooDeep, fun _ _ _ => Likeness.similar_tooDeep⟩
  | succ depth inductionHypothesis =>
      exact ⟨fun functions arguments places =>
          Function.run_similar inductionHypothesis functions arguments places,
        fun provided arguments scopes =>
          respects inductionHypothesis provided.callback arguments scopes⟩

theorem Invoker.trusts_upTo_upTo (depth : Nat) :
    likeness.Trusts (Invoker.upTo Host.standard depth) (Invoker.upTo Host.standard depth) :=
  Host.Respects.trusts (Host.standard_respects likeness) depth

end

end NanoScript
