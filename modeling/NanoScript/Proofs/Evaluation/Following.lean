import NanoScript.Proofs.Evaluation.Regime

/-!
Contract: every evaluation of what fits a regime follows the regime.

Owns:
- the theorem for phrases, by induction on the phrase, under any invoker that follows the regime;
- the theorem for declared functions, and for the invokers of a host whose functions follow the
  regime, by induction on the depth of calls;
- the standard host, which follows every regime in which lines may be printed.

What a part gives is known to the state that the part leaves, not to the one before, so that the
parts behind it are taken up from later states.
-/

namespace NanoScript

open Regime

section

variable {regime : Regime} {invoker : Invoker} {scope : ScopeId}

/-- A phrase that declares nothing has declared all that it declares. -/
theorem Regime.Follows.done {world : State} {phrase : Phrase} {computation : Evaluation Value}
    (none : phrase.declaredNames = [])
    (follows : regime.Follows world regime.Knows computation) :
    regime.Follows world (fun after value => regime.Knows after value ∧ after.Done scope phrase)
      computation := by
  refine follows.imp fun _ _ _ known => ⟨known, fun _ name member => ?_⟩
  rw [none] at member
  cases member

mutual

theorem Phrase.evaluate_follows {world : State} (trusts : regime.Trusts invoker) (phrase : Phrase)
    (fits : regime.Fits world scope [phrase]) :
    regime.Follows world (fun after value => regime.Knows after value ∧ after.Done scope phrase)
      (phrase.evaluate invoker scope) := by
  match phrase with
  | .program body _ =>
      exact .done rfl (Phrase.evaluateBlock_follows trusts body (regime.block fits) knows_null)
  | .variableDeclaration name none constant span =>
      exact follows_declareVariable fits knows_null
  | .variableDeclaration name (some value) constant span =>
      have fitsValue := regime.part fits nofun (.head _ : value ∈ [value])
      refine (Phrase.evaluate_follows trusts value fitsValue).bind fun later _ grown holds => ?_
      exact follows_declareVariable (grown.fits fits) holds.1
  | .functionDeclaration name parameters body span => exact follows_declareFunction _ fits
  | .identifier name span => exact .done rfl (follows_lookup fits .unresolved nofun)
  | .numericLiteral value span => exact .done rfl (follows_pure fun _ _ => knows_number)
  | .binary left operator right span =>
      have fitsLeft := regime.part fits nofun (.head _ : left ∈ [left, right])
      have fitsRight := regime.part fits nofun (.tail left (.head _) : right ∈ [left, right])
      refine .done rfl ?_
      refine (Phrase.evaluate_follows trusts left fitsLeft).bind fun later _ grown _ => ?_
      refine (Phrase.evaluate_follows trusts right (grown.fits fitsRight)).bind
        fun last _ goesOn _ => ?_
      exact follows_operate (goesOn.fits (grown.fits fits)) _ _
  | .assignment target value span =>
      have fitsValue := regime.part fits nofun (.head _ : value ∈ [value])
      refine .done rfl ?_
      unfold Phrase.evaluate
      split
      · next noName =>
          exact follows_fail fun _ grown admits =>
            regime.raises admits (grown.fits fits) ⟨.target noName, nofun, nofun⟩
      · next name named =>
          refine (Phrase.evaluate_follows trusts value fitsValue).bind fun later _ grown holds => ?_
          exact follows_assign (grown.fits fits) named holds.1
  | .objectLiteral entries span =>
      refine .done rfl ?_
      refine (Entry.evaluateAll_follows trusts entries fits (fun _ member => member)
        regime.empty).bind fun _ _ _ known => ?_
      exact follows_pure fun _ grown => grown.knows known
  | .call callee arguments span =>
      have fitsCallee := regime.part fits nofun (.head _ : callee ∈ callee :: arguments)
      have fitsArguments : ∀ argument ∈ arguments, regime.Fits world scope [argument] :=
        fun argument member =>
          regime.part fits nofun (.tail callee member : argument ∈ callee :: arguments)
      refine .done rfl ?_
      refine (Phrase.evaluateAll_follows trusts arguments fitsArguments).bind
        fun later values grown given => ?_
      intro state goesOn admits
      have fitsNow := goesOn.fits (grown.fits fits)
      refine (Phrase.evaluate_follows trusts callee (grown.fits fitsCallee) state goesOn
        admits).bind fun function last gives changes holds => ?_
      have calls (declared : Function) (same : function = .function declared) :
          regime.Calls last declared span :=
        regime.call admits trusts.uses fitsNow (same ▸ gives) (same ▸ holds.1)
      refine follows_callValue trusts (changes.fits fitsNow) calls holds.1
        (fun argument member => ?_) last .refl (changes.admits admits)
      exact changes.knows (goesOn.knows (given argument member))
  | .member object property true span =>
      have fitsObject := regime.part fits nofun (.head _ : object ∈ [object, property])
      have fitsProperty :=
        regime.part fits nofun (.tail object (.head _) : property ∈ [object, property])
      refine .done rfl ?_
      refine (Phrase.evaluate_follows trusts object fitsObject).bind fun later _ grown holds => ?_
      refine (Phrase.evaluate_follows trusts property (grown.fits fitsProperty)).bind
        fun last _ goesOn _ => ?_
      have fitsNow := goesOn.fits (grown.fits fits)
      refine (follows_propertyKey fitsNow _).bind fun _ _ goesOn' _ => ?_
      exact follows_readProperty (goesOn'.fits fitsNow) (goesOn'.knows (goesOn.knows holds.1)) _
  | .member object property false span =>
      have fitsObject := regime.part fits nofun (.head _ : object ∈ [object])
      refine .done rfl ?_
      refine (Phrase.evaluate_follows trusts object fitsObject).bind fun later _ grown holds => ?_
      rw [if_neg Bool.false_ne_true]
      split
      · exact follows_readProperty (grown.fits fits) holds.1 _
      · next noName =>
          exact follows_fail fun _ goesOn admits =>
            regime.raises admits (goesOn.fits (grown.fits fits)) ⟨.key noName, nofun, nofun⟩

theorem Phrase.evaluateBlock_follows {world : State} (trusts : regime.Trusts invoker)
    (body : List Phrase) (fits : regime.Fits world scope body) {last : Value}
    (known : regime.Knows world last) :
    regime.Follows world regime.Knows (Phrase.evaluateBlock invoker scope last body) := by
  match body with
  | [] => exact follows_pure fun _ grown => grown.knows known
  | statement :: rest =>
      refine (Phrase.evaluate_follows trusts statement (regime.head fits)).bind
        fun later value grown holds => ?_
      exact Phrase.evaluateBlock_follows trusts rest (regime.next (grown.fits fits) holds.2) holds.1

theorem Phrase.evaluateAll_follows {world : State} (trusts : regime.Trusts invoker)
    (phrases : List Phrase) (fits : ∀ phrase ∈ phrases, regime.Fits world scope [phrase]) :
    regime.Follows world (fun after values => ∀ value ∈ values, regime.Knows after value)
      (Phrase.evaluateAll invoker scope phrases) := by
  match phrases with
  | [] => exact follows_pure fun _ _ value member => nomatch member
  | phrase :: rest =>
      refine (Phrase.evaluate_follows trusts phrase (fits phrase (.head _))).bind
        fun later value grown holds => ?_
      refine (Phrase.evaluateAll_follows trusts rest fun other member =>
        grown.fits (fits other (.tail _ member))).bind fun last values goesOn others => ?_
      refine follows_pure fun _ stays =>
        List.forall_mem_cons.2 ⟨stays.knows (goesOn.knows holds.1), ?_⟩
      exact fun other member => stays.knows (others other member)

theorem Entry.evaluate_follows {world : State} (trusts : regime.Trusts invoker) (entry : Entry)
    {entries : List Entry} {span : Span}
    (fits : regime.Fits world scope [.objectLiteral entries span])
    (listed : entry ∈ entries) :
    regime.Follows world regime.Knows (entry.evaluate invoker scope) := by
  match entry with
  | .shorthand key _ => exact follows_lookup fits (.shorthandUnresolved listed) nofun
  | .keyed _ value _ =>
      have part : value ∈ entries.filterMap Entry.value? := List.mem_filterMap.2 ⟨_, listed, rfl⟩
      exact (Phrase.evaluate_follows trusts value (regime.part fits nofun part)).imp
        fun _ _ _ holds => holds.1

/-- The entries that are still to come are entries of the whole literal. -/
theorem Entry.evaluateAll_follows {world : State} (trusts : regime.Trusts invoker)
    (rest : List Entry) {entries : List Entry} {span : Span}
    (fits : regime.Fits world scope [.objectLiteral entries span])
    (listed : ∀ entry ∈ rest, entry ∈ entries) {properties : Table Value}
    (known : regime.Knows world (.object properties)) :
    regime.Follows world (fun after table => regime.Knows after (.object table))
      (Entry.evaluateAll invoker scope properties rest) := by
  match rest with
  | [] => exact follows_pure fun _ grown => grown.knows known
  | entry :: others =>
      refine (Entry.evaluate_follows trusts entry fits (listed entry (.head _))).bind
        fun later value grown valueKnown => ?_
      exact Entry.evaluateAll_follows trusts others (grown.fits fits)
        (fun other member => listed other (.tail _ member))
        (regime.insert entry.key (grown.knows known) valueKnown)

end

/-! ## Functions -/

theorem Function.run_follows {world : State} (trusts : regime.Trusts invoker) {function : Function}
    {arguments : List Value} {span : Span} (calls : regime.Calls world function span)
    (known : regime.Knows world (.function function))
    (given : ∀ argument ∈ arguments, regime.Knows world argument) :
    regime.Follows world regime.Knows (function.run invoker arguments span) := by
  by_cases lengths : arguments.length = function.parameters.length
  · rw [run_eq_of_length_eq lengths]
    refine (follows_enter calls known lengths given).bind fun later inner _ fits => ?_
    exact Phrase.evaluateBlock_follows (trusts.within _) function.body fits knows_null
  · rw [Function.run, if_pos lengths]
    exact follows_fail fun _ _ _ => regime.arity _ calls

/-- A host whose functions follow a regime as long as what they call does. -/
def Regime.Covers (regime : Regime) (host : Host) : Prop :=
  ∀ {invoker world arguments scope} key, regime.Trusts invoker → regime.Fits world scope [] →
    (∀ argument ∈ arguments, regime.Knows world argument) →
      regime.Follows world regime.Knows (host.callback key invoker arguments scope)

theorem Regime.Covers.trusts {host : Host} (covers : regime.Covers host)
    (uses : ∀ depth, regime.Uses (Invoker.upTo host depth)) (depth : Nat) :
    regime.Trusts (Invoker.upTo host depth) := by
  induction depth with
  | zero => exact ⟨uses 0, fun _ _ _ => follows_tooDeep, fun _ _ _ => follows_tooDeep⟩
  | succ depth inductionHypothesis =>
      exact ⟨uses _,
        fun calls known given => Function.run_follows inductionHypothesis calls known given,
        fun function seen given => covers function.callback inductionHypothesis seen given⟩

end

/-- The functions of the standard host print or do nothing. -/
theorem Regime.covers_standard {regime : Regime}
    (print : ∀ {state} line, regime.Change state (state.print line)) :
    regime.Covers Host.standard := by
  intro invoker world arguments scope key _ _ _
  show regime.Follows world regime.Knows
    ((if key = Host.printKey then Callback.print else Callback.nothing) invoker arguments scope)
  split
  · exact fun state _ _ => ⟨.single (print _), knows_null⟩
  · exact follows_pure fun _ _ => knows_null

end NanoScript
