import NanoScript.Proofs.Evaluation.Following

/-!
Contract: evaluations that do not depend on how deep calls may nest.

Owns:
- computations that never stop at the depth of calls; all primitive ones are of that kind;
- pairs of computations that do the same and never stop at the depth of calls, as long as they start
  in a state that a regime admits, and how such pairs combine;
- the theorem for phrases, by induction on the phrase, under two invokers whose calls are such a
  pair wherever a phrase that fits the regime makes them;
- the same for a function, if it is so for the statements of its body.
-/

namespace NanoScript

/-! ## Computations that do not stop at the depth of calls -/

namespace Evaluation

variable {α β : Type}

def NeverTooDeep (computation : Evaluation α) : Prop :=
  ∀ state after, computation state ≠ .error .tooDeep after

theorem neverTooDeep_pure {value : α} : (pure value : Evaluation α).NeverTooDeep := by
  intro state after stops
  cases stops

theorem neverTooDeep_fail {fault : Fault} : (fail fault : Evaluation α).NeverTooDeep := by
  intro state after stops
  cases stops

theorem NeverTooDeep.bind {first : Evaluation α} {next : α → Evaluation β}
    (never : first.NeverTooDeep) (goesOn : ∀ value, (next value).NeverTooDeep) :
    (first >>= next).NeverTooDeep := by
  intro state after stops
  rw [bind_apply] at stops
  cases result : first state with
  | ok value middle =>
      rw [result] at stops
      exact goesOn value middle after stops
  | error stop middle =>
      rw [result] at stops
      cases stops
      exact never state after result

theorem neverTooDeep_bindWhere {find : Store → Except ScopeError ScopeId} {name : String}
    {binding : Binding} {span : Span} : (bindWhere find name binding span).NeverTooDeep := by
  intro state after stops
  rw [bindWhere_apply] at stops
  split at stops <;> cases stops

theorem neverTooDeep_lookup {scope : ScopeId} {name : String} {span : Span} :
    (lookup scope name span).NeverTooDeep := by
  intro state after stops
  rw [lookup_apply] at stops
  split at stops <;> cases stops

theorem neverTooDeep_declare {scope : ScopeId} {name : String} {value : Value} {constant : Bool}
    {span : Span} : (declare scope name value constant span).NeverTooDeep :=
  neverTooDeep_bindWhere.bind fun _ => neverTooDeep_pure

theorem neverTooDeep_assign {scope : ScopeId} {name : String} {value : Value} {span : Span} :
    (assign scope name value span).NeverTooDeep :=
  neverTooDeep_bindWhere.bind fun _ => neverTooDeep_pure

theorem neverTooDeep_declareAll {scope : ScopeId} {span : Span}
    {bindings : List (String × Value)} : (declareAll scope span bindings).NeverTooDeep := by
  induction bindings with
  | nil => exact neverTooDeep_pure
  | cons head rest inductionHypothesis =>
      exact neverTooDeep_bindWhere.bind fun _ => inductionHypothesis

theorem neverTooDeep_addEnclosed {parent : ScopeId} : (addEnclosed parent).NeverTooDeep := by
  intro state after stops
  cases stops

theorem neverTooDeep_arithmetic {operator : Operator} {left right : Number} {span : Span} :
    (arithmetic operator left right span).NeverTooDeep := by
  unfold arithmetic
  cases operator with
  | add => exact neverTooDeep_pure
  | subtract => exact neverTooDeep_pure
  | multiply => exact neverTooDeep_pure
  | divide =>
      dsimp only
      split
      · exact neverTooDeep_fail
      · exact neverTooDeep_pure
  | modulo =>
      dsimp only
      split
      · exact neverTooDeep_fail
      · exact neverTooDeep_pure

theorem neverTooDeep_operate {operator : Operator} {left right : Value} {span : Span} :
    (operate operator left right span).NeverTooDeep := by
  unfold operate
  split
  · exact neverTooDeep_arithmetic
  · exact neverTooDeep_pure

theorem neverTooDeep_propertyKey {key : Value} {span : Span} :
    (propertyKey key span).NeverTooDeep := by
  unfold propertyKey
  split
  · exact neverTooDeep_pure
  · exact neverTooDeep_pure
  · exact neverTooDeep_fail

theorem neverTooDeep_readProperty {object : Value} {key : String} {span : Span} :
    (readProperty object key span).NeverTooDeep := by
  unfold readProperty
  split
  · exact neverTooDeep_pure
  · exact neverTooDeep_fail

end Evaluation

/-! ## Computations that do the same -/

namespace Evaluation

variable {α β : Type}

/-- In a state, two computations do the same and do not stop at the depth of calls. -/
def SettledAt (state : State) (left right : Evaluation α) : Prop :=
  left state = right state ∧ ∀ after, left state ≠ .error .tooDeep after

theorem NeverTooDeep.settledAt {computation : Evaluation α} (never : computation.NeverTooDeep)
    (state : State) : SettledAt state computation computation :=
  ⟨rfl, never state⟩

/-- One computation after another. -/
theorem SettledAt.bind {state : State} {left right : Evaluation α}
    {leftNext rightNext : α → Evaluation β} (settled : SettledAt state left right)
    (goesOn : ∀ value after, left state = .ok value after →
      SettledAt after (leftNext value) (rightNext value)) :
    SettledAt state (left >>= leftNext) (right >>= rightNext) := by
  obtain ⟨same, never⟩ := settled
  unfold SettledAt
  rw [bind_apply, bind_apply, ← same]
  cases result : left state with
  | error stop after =>
      refine ⟨rfl, fun other stops => ?_⟩
      cases stops
      exact never after result
  | ok value after => exact goesOn value after result

end Evaluation

namespace Regime

open Evaluation

variable {α β : Type} {regime : Regime} {world : State}

/-- From every admissible state that has come from a given one, two computations do the same and do
not stop at the depth of calls. -/
def Settled (regime : Regime) (world : State) (left right : Evaluation α) : Prop :=
  ∀ state, regime.Grown world state → regime.Admits state → SettledAt state left right

theorem settled_of_neverTooDeep {computation : Evaluation α}
    (never : computation.NeverTooDeep) : regime.Settled world computation computation :=
  fun state _ _ => never.settledAt state

/-- One computation after another.  That the first one follows the regime keeps the state admissible
for the next ones. -/
theorem Settled.bind {left right : Evaluation α} {leftNext rightNext : α → Evaluation β}
    {between : State → α → Prop} (settled : regime.Settled world left right)
    (follows : regime.Follows world between left)
    (goesOn : ∀ later value, regime.Grown world later → between later value →
      regime.Settled later (leftNext value) (rightNext value)) :
    regime.Settled world (left >>= leftNext) (right >>= rightNext) := by
  intro state grown admits
  refine (settled state grown admits).bind fun value after result => ?_
  have ends := follows state grown admits
  rw [result] at ends
  exact goesOn after value (grown.trans ends.1) ends.2 after .refl (ends.1.admits admits)

/-- Two invokers under which functions do the same wherever a phrase that fits the regime calls
them. -/
structure Settles (regime : Regime) (left right : Invoker) : Prop where
  text : left.text = right.text
  function : ∀ {world scope callee listed span function arguments},
    regime.Fits world scope [.call callee listed span] → regime.Calls world function span →
      regime.Knows world (.function function) →
        (∀ argument ∈ arguments, regime.Knows world argument) →
          regime.Settled world (left.function function arguments span)
            (right.function function arguments span)
  native : ∀ {world scope callee listed span arguments} function,
    regime.Fits world scope [.call callee listed span] →
      regime.Settled world (left.native function arguments scope)
        (right.native function arguments scope)

theorem Settles.within {left right : Invoker} (settles : regime.Settles left right) (text : Nat) :
    regime.Settles (left.within text) (right.within text) :=
  ⟨rfl, settles.function, settles.native⟩

theorem settled_callValue {left right : Invoker} (settles : regime.Settles left right)
    {scope : ScopeId} {callee : Phrase} {listed : List Phrase} {span : Span}
    {function : Value} {arguments : List Value}
    (fits : regime.Fits world scope [.call callee listed span])
    (calls : ∀ declared, function = .function declared → regime.Calls world declared span)
    (known : regime.Knows world function)
    (given : ∀ argument ∈ arguments, regime.Knows world argument) :
    regime.Settled world (callValue left scope function arguments callee.span span)
      (callValue right scope function arguments callee.span span) := by
  unfold callValue
  split
  · next declared => exact settles.function fits (calls declared rfl) known given
  · next provided => exact settles.native provided fits
  · exact settled_of_neverTooDeep neverTooDeep_fail

end Regime

/-! ## Phrases -/

section

open Evaluation Regime

variable {regime : Regime} {left right : Invoker} {scope : ScopeId}

-- Only calls look at the invoker, so all other steps are one computation on both sides.
mutual

theorem Phrase.evaluate_settled {world : State} (trusts : regime.Trusts left)
    (settles : regime.Settles left right) (phrase : Phrase)
    (fits : regime.Fits world scope [phrase]) :
    regime.Settled world (phrase.evaluate left scope) (phrase.evaluate right scope) := by
  match phrase with
  | .program body _ => exact Phrase.evaluateBlock_settled trusts settles body (regime.block fits)
  | .variableDeclaration name none constant span =>
      exact settled_of_neverTooDeep neverTooDeep_declare
  | .variableDeclaration name (some value) constant span =>
      have fitsValue := regime.part fits nofun (.head _ : value ∈ [value])
      refine (Phrase.evaluate_settled trusts settles value fitsValue).bind
        (Phrase.evaluate_follows trusts value fitsValue) fun _ _ _ _ => ?_
      exact settled_of_neverTooDeep neverTooDeep_declare
  | .functionDeclaration name parameters body span =>
      rw [Phrase.evaluate, Phrase.evaluate, settles.text]
      exact settled_of_neverTooDeep neverTooDeep_declare
  | .identifier name span => exact settled_of_neverTooDeep neverTooDeep_lookup
  | .numericLiteral value span => exact settled_of_neverTooDeep neverTooDeep_pure
  | .binary first operator second span =>
      have fitsFirst := regime.part fits nofun (.head _ : first ∈ [first, second])
      have fitsSecond :=
        regime.part fits nofun (.tail first (.head _) : second ∈ [first, second])
      refine (Phrase.evaluate_settled trusts settles first fitsFirst).bind
        (Phrase.evaluate_follows trusts first fitsFirst) fun later _ grown _ => ?_
      have fitsLater := grown.fits fitsSecond
      refine (Phrase.evaluate_settled trusts settles second fitsLater).bind
        (Phrase.evaluate_follows trusts second fitsLater) fun _ _ _ _ => ?_
      exact settled_of_neverTooDeep neverTooDeep_operate
  | .assignment target value span =>
      have fitsValue := regime.part fits nofun (.head _ : value ∈ [value])
      unfold Phrase.evaluate
      split
      · exact settled_of_neverTooDeep neverTooDeep_fail
      · refine (Phrase.evaluate_settled trusts settles value fitsValue).bind
          (Phrase.evaluate_follows trusts value fitsValue) fun _ _ _ _ => ?_
        exact settled_of_neverTooDeep neverTooDeep_assign
  | .objectLiteral entries span =>
      have all : ∀ entry ∈ entries, entry ∈ entries := fun _ member => member
      refine (Entry.evaluateAll_settled trusts settles entries fits all regime.empty).bind
        (Entry.evaluateAll_follows trusts entries fits all regime.empty) fun _ _ _ _ => ?_
      exact settled_of_neverTooDeep neverTooDeep_pure
  | .call callee arguments span =>
      have fitsCallee := regime.part fits nofun (.head _ : callee ∈ callee :: arguments)
      have fitsArguments : ∀ argument ∈ arguments, regime.Fits world scope [argument] :=
        fun argument member =>
          regime.part fits nofun (.tail callee member : argument ∈ callee :: arguments)
      refine (Phrase.evaluateAll_settled trusts settles arguments fitsArguments).bind
        (Phrase.evaluateAll_follows trusts arguments fitsArguments)
        fun later values grown given => ?_
      have fitsLater := grown.fits fitsCallee
      intro state goesOn admits
      have fitsNow := goesOn.fits (grown.fits fits)
      refine (Phrase.evaluate_settled trusts settles callee fitsLater state goesOn admits).bind
        fun function last gives => ?_
      have ends := Phrase.evaluate_follows trusts callee fitsLater state goesOn admits
      rw [gives] at ends
      obtain ⟨changes, known, _⟩ := ends
      have calls (declared : Function) (same : function = .function declared) :
          regime.Calls last declared span :=
        regime.call admits trusts.uses fitsNow (same ▸ gives) (same ▸ known)
      refine settled_callValue settles (changes.fits fitsNow) calls known
        (fun argument member => ?_) last .refl (changes.admits admits)
      exact changes.knows (goesOn.knows (given argument member))
  | .member object property true span =>
      have fitsObject := regime.part fits nofun (.head _ : object ∈ [object, property])
      have fitsProperty :=
        regime.part fits nofun (.tail object (.head _) : property ∈ [object, property])
      refine (Phrase.evaluate_settled trusts settles object fitsObject).bind
        (Phrase.evaluate_follows trusts object fitsObject) fun later target grown _ => ?_
      have fitsLater := grown.fits fitsProperty
      refine (Phrase.evaluate_settled trusts settles property fitsLater).bind
        (Phrase.evaluate_follows trusts property fitsLater) fun _ key _ _ => ?_
      exact settled_of_neverTooDeep
        (neverTooDeep_propertyKey.bind fun _ => neverTooDeep_readProperty)
  | .member object property false span =>
      have fitsObject := regime.part fits nofun (.head _ : object ∈ [object])
      refine (Phrase.evaluate_settled trusts settles object fitsObject).bind
        (Phrase.evaluate_follows trusts object fitsObject) fun later target _ _ => ?_
      rw [if_neg Bool.false_ne_true]
      split
      · exact settled_of_neverTooDeep neverTooDeep_readProperty
      · exact settled_of_neverTooDeep neverTooDeep_fail

theorem Phrase.evaluateBlock_settled {world : State} (trusts : regime.Trusts left)
    (settles : regime.Settles left right) {last : Value} (body : List Phrase)
    (fits : regime.Fits world scope body) :
    regime.Settled world (Phrase.evaluateBlock left scope last body)
      (Phrase.evaluateBlock right scope last body) := by
  match body with
  | [] => exact settled_of_neverTooDeep neverTooDeep_pure
  | statement :: rest =>
      have fitsFirst := regime.head fits
      refine (Phrase.evaluate_settled trusts settles statement fitsFirst).bind
        (Phrase.evaluate_follows trusts statement fitsFirst) fun later value grown holds => ?_
      exact Phrase.evaluateBlock_settled trusts settles rest (regime.next (grown.fits fits) holds.2)

theorem Phrase.evaluateAll_settled {world : State} (trusts : regime.Trusts left)
    (settles : regime.Settles left right) (phrases : List Phrase)
    (fits : ∀ phrase ∈ phrases, regime.Fits world scope [phrase]) :
    regime.Settled world (Phrase.evaluateAll left scope phrases)
      (Phrase.evaluateAll right scope phrases) := by
  match phrases with
  | [] => exact settled_of_neverTooDeep neverTooDeep_pure
  | phrase :: rest =>
      have fitsFirst := fits phrase (.head _)
      refine (Phrase.evaluate_settled trusts settles phrase fitsFirst).bind
        (Phrase.evaluate_follows trusts phrase fitsFirst) fun later value grown _ => ?_
      have fitsRest : ∀ other ∈ rest, regime.Fits later scope [other] := fun other member =>
        grown.fits (fits other (.tail _ member))
      refine (Phrase.evaluateAll_settled trusts settles rest fitsRest).bind
        (Phrase.evaluateAll_follows trusts rest fitsRest) fun _ _ _ _ => ?_
      exact settled_of_neverTooDeep neverTooDeep_pure

theorem Entry.evaluate_settled {world : State} (trusts : regime.Trusts left)
    (settles : regime.Settles left right) (entry : Entry) {entries : List Entry} {span : Span}
    (fits : regime.Fits world scope [.objectLiteral entries span]) (listed : entry ∈ entries) :
    regime.Settled world (entry.evaluate left scope) (entry.evaluate right scope) := by
  match entry with
  | .shorthand key span => exact settled_of_neverTooDeep neverTooDeep_lookup
  | .keyed _ value _ =>
      have part : value ∈ entries.filterMap Entry.value? := List.mem_filterMap.2 ⟨_, listed, rfl⟩
      exact Phrase.evaluate_settled trusts settles value (regime.part fits nofun part)

theorem Entry.evaluateAll_settled {world : State} (trusts : regime.Trusts left)
    (settles : regime.Settles left right) (rest : List Entry) {entries : List Entry} {span : Span}
    (fits : regime.Fits world scope [.objectLiteral entries span])
    (listed : ∀ entry ∈ rest, entry ∈ entries) {properties : Table Value}
    (known : regime.Knows world (.object properties)) :
    regime.Settled world (Entry.evaluateAll left scope properties rest)
      (Entry.evaluateAll right scope properties rest) := by
  match rest with
  | [] => exact settled_of_neverTooDeep neverTooDeep_pure
  | entry :: others =>
      have isEntry := listed entry (.head _)
      refine (Entry.evaluate_settled trusts settles entry fits isEntry).bind
        (Entry.evaluate_follows trusts entry fits isEntry) fun later value grown valueKnown => ?_
      exact Entry.evaluateAll_settled trusts settles others (grown.fits fits)
        (fun other member => listed other (.tail _ member))
        (regime.insert entry.key (grown.knows known) valueKnown)

end

/-! ## Functions -/

/-- A function is entered in the same way under every invoker, so that only its body counts. -/
theorem Function.run_settled {world : State} {span : Span} {function : Function}
    {arguments : List Value} (calls : regime.Calls world function span)
    (known : regime.Knows world (.function function))
    (given : ∀ argument ∈ arguments, regime.Knows world argument)
    (body : ∀ later id, regime.Settled later
      (Phrase.evaluateBlock (left.within function.bodyId.text) id .null function.body)
      (Phrase.evaluateBlock (right.within function.bodyId.text) id .null function.body)) :
    regime.Settled world (function.run left arguments span)
      (function.run right arguments span) := by
  by_cases lengths : arguments.length = function.parameters.length
  · rw [run_eq_of_length_eq lengths, run_eq_of_length_eq lengths]
    refine (settled_of_neverTooDeep ?_).bind (follows_enter calls known lengths given)
      fun later id _ _ => body later id
    exact neverTooDeep_addEnclosed.bind fun _ =>
      neverTooDeep_declareAll.bind fun _ => neverTooDeep_pure
  · rw [Function.run, Function.run, if_pos lengths, if_pos lengths]
    exact settled_of_neverTooDeep neverTooDeep_fail

end

end NanoScript
