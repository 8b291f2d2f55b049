import NanoScript.Proofs.Evaluation.Constants
import NanoScript.Proofs.Evaluation.Nesting
import NanoScript.Proofs.Phrase.Contents
import NanoScript.Proofs.Run.Start

/-!
Contract: programs that make calls only outside the bodies of functions come to an end.

Owns:
- phrases without calls, and programs with calls outside function bodies only;
- the evaluations of such a phrase: all functions they meet have bodies without calls;
- a body without calls does the same whatever calls do, and a call of a function with such a body
  does the same to whatever depth calls may nest;
- the theorem that a run of such a program from the start ends with a value or an error, and with
  the same one as soon as one call may be made at a time.

A function that is called need not be declared where it is called: it may come out of a variable
that was assigned to, out of an object, or out of another call.  What carries the proof is that
every function of the state was declared by the program, so that its body is free of calls.
-/

namespace NanoScript

/-! ## Where calls occur -/

/-- No call occurs in the phrase. -/
def Phrase.CallFree (phrase : Phrase) : Prop :=
  ∀ part : Phrase, part.OccursIn phrase → part.kind ≠ .call

/-- No call occurs in the body of a function that is declared in the phrase. -/
def Phrase.CallsOutside (phrase : Phrase) : Prop :=
  ∀ declaration : Phrase, declaration.OccursIn phrase →
    ∀ statement ∈ declaration.body, statement.CallFree

instance (phrase : Phrase) : Decidable phrase.CallFree :=
  inferInstanceAs (Decidable (∀ part : Phrase, part.OccursIn phrase → part.kind ≠ .call))

instance (phrase : Phrase) : Decidable phrase.CallsOutside :=
  inferInstanceAs (Decidable (∀ declaration : Phrase, declaration.OccursIn phrase →
    ∀ statement ∈ declaration.body, statement.CallFree))

namespace Phrase

variable {part whole : Phrase}

theorem CallFree.inside (free : whole.CallFree) (occurs : part.OccursIn whole) : part.CallFree :=
  fun _ inPart => free _ (inPart.trans occurs)

theorem CallsOutside.inside (outside : whole.CallsOutside) (occurs : part.OccursIn whole) :
    part.CallsOutside :=
  fun _ inPart => outside _ (inPart.trans occurs)

theorem CallFree.callsOutside (free : whole.CallFree) : whole.CallsOutside :=
  fun _ occurs _ member => free.inside ((OccursIn.of_body member).trans occurs)

end Phrase

/-! ## Evaluations that meet only functions without calls -/

namespace Discipline

/-- The evaluations of phrases without calls. -/
def withoutCalls : Discipline :=
  .ofStock Phrase.CallFree (fun free member => free.inside (.of_parts member))
    fun free member => free.inside (.of_body member)

/-- The evaluations of phrases with calls outside function bodies only. -/
def callsOutside : Discipline where
  base := 0
  scopes _ := True
  functions _ function := ∀ phrase ∈ function.body, phrase.CallFree
  fits _ _ phrase := phrase.CallsOutside
  fresh _ := trivial
  functions_mono _ within := within
  fits_mono _ within := within
  closure _ := trivial
  scope _ := trivial
  part outside member := outside.inside (.of_parts (Phrase.mem_parts_of_mem_evaluated member))
  declared _ outside := outside _ .here
  body _ within member := (within _ member).callsOutside

/-- Both disciplines admit the same states, since they meet the same functions. -/
theorem Admits.withoutCalls {state : State} (admits : callsOutside.Admits state) :
    withoutCalls.Admits state :=
  ⟨admits.enough, admits.parents, admits.values⟩

theorem callsOutside_admits_initial : callsOutside.Admits State.initial.2 := by
  refine ⟨Nat.zero_le _, fun _ _ _ _ => trivial, ?_⟩
  intro id scope _ present entry member function occurs
  exact absurd ⟨id, scope, present, entry, member, occurs⟩ (State.not_holds_initial function)

/-- Where there are no calls, nothing asks what calls do. -/
theorem withoutCalls_settles (start : State) (text : Nat) (left right : Invoker) :
    (withoutCalls.regime start).Settles (left.within text) (right.within text) :=
  ⟨rfl, fun fits => absurd rfl (fits.2 _ (.head _) _ .here),
    fun _ fits => absurd rfl (fits.2 _ (.head _) _ .here)⟩

theorem settledAt_body {body : List Phrase} (free : ∀ phrase ∈ body, phrase.CallFree)
    {state : State} (admits : callsOutside.Admits state) (depth other text : Nat)
    (scope : ScopeId) :
    Evaluation.SettledAt state
      (Phrase.evaluateBlock ((Invoker.upTo Host.standard depth).within text) scope .null body)
      (Phrase.evaluateBlock ((Invoker.upTo Host.standard other).within text) scope .null body) := by
  have settles := withoutCalls_settles state text (Invoker.upTo Host.standard depth)
    (Invoker.upTo Host.standard other)
  exact Phrase.evaluateBlock_settled ((trusts_upTo state depth).within text) settles body
    ⟨trivial, free⟩ state .refl ⟨admits.withoutCalls, .refl⟩

/-- The functions of the standard host call nothing. -/
theorem settled_standard {regime : Regime} {world : State} (key : String)
    (left right : Invoker) (arguments : List Value) (scope : ScopeId) :
    regime.Settled world (Host.standard.callback key left arguments scope)
      (Host.standard.callback key right arguments scope) := by
  intro state _ _
  unfold Host.standard
  dsimp only
  split <;> exact ⟨rfl, fun after stops => nomatch stops⟩

/-- As soon as one call may be made, it does not matter how deep calls may nest. -/
theorem callsOutside_settles (start : State) (depth other : Nat) :
    (callsOutside.regime start).Settles (Invoker.upTo Host.standard (depth + 1))
      (Invoker.upTo Host.standard (other + 1)) where
  text := rfl
  function := by
    intro world scope callee listed span function arguments _ calls known given
    have free := known function (List.mem_singleton.2 rfl)
    exact Function.run_settled calls known given fun _ id state _ admits =>
      settledAt_body free admits.1 depth other function.bodyId.text id
  native := fun function _ => settled_standard function.callback _ _ _ _

end Discipline

/-! ## Runs -/

/-- What an evaluation gives from an admissible state is the same to whatever depth calls may nest,
and it is a value or an error. -/
theorem Phrase.CallsOutside.outcome_eq {phrase : Phrase} (outside : phrase.CallsOutside)
    {state : State} (admits : Discipline.callsOutside.Admits state) (depth text : Nat)
    (scope : ScopeId) :
    let outcome := (phrase.evaluate
      ((Invoker.upTo Host.standard (depth + 1)).within text) scope).outcome state
    outcome =
        (phrase.evaluate ((Invoker.upTo Host.standard 1).within text) scope).outcome state ∧
      outcome.1 ≠ .error .tooDeep := by
  intro outcome
  obtain ⟨same, never⟩ := phrase.evaluate_settled
    ((Discipline.trusts_upTo state (depth + 1)).within text)
    ((Discipline.callsOutside_settles state depth 0).within text)
    ⟨trivial, List.forall_mem_singleton.2 outside⟩ state .refl ⟨admits, .refl⟩
  have isOutcome := Evaluation.outcome_apply
    (phrase.evaluate ((Invoker.upTo Host.standard (depth + 1)).within text) scope) state
  refine ⟨?_, fun stops => ?_⟩
  · rw [show outcome = _ from isOutcome, Evaluation.outcome_apply, same]
  · rw [show outcome = _ from isOutcome] at stops
    cases result : phrase.evaluate ((Invoker.upTo Host.standard (depth + 1)).within text) scope
        state with
    | ok value after =>
        rw [result] at stops
        cases stops
    | error stop after =>
        rw [result] at stops
        cases stop with
        | fault fault => cases stops
        | tooDeep => exact never after result

/-- A run from the start of a program whose function bodies contain no calls ends with a value or an
error, and with the same to whatever depth calls may nest. -/
theorem run_ends_of_callsOutside {source : String}
    (outside : ∀ program, Phrase.ofSource source = .ok program → program.CallsOutside) :
    ∃ outcome, outcome.1 ≠ .error .tooDeep ∧ ∀ depth,
      run (Invoker.upTo Host.standard (depth + 1)) source State.initial.1 State.initial.2 =
        outcome := by
  cases reads : Phrase.ofSource source with
  | error error =>
      refine ⟨(.error (.syntaxError error), State.initial.2), nofun, fun depth => ?_⟩
      exact run_of_fails _ reads
  | ok program =>
      have ends := (outside program reads).outcome_eq
        Discipline.callsOutside_admits_initial.addText
      refine ⟨_, (ends 0 State.initial.2.store.texts State.initial.1).2, fun depth => ?_⟩
      exact (run_of_reads _ reads).trans (ends depth _ State.initial.1).1

/-- Functions that come out of an object, out of an assignment and out of calls, called in one
statement. -/
theorem chained_calls_end :
    let source := "fn make(n) { fn get() { n } get } let o = { f: make }; let g = print; " ++
      "g = o.f; print(g(make(2)())())"
    (∀ program, Phrase.ofSource source = .ok program → program.CallsOutside) ∧
      ∃ outcome, outcome.1 ≠ .error .tooDeep ∧ outcome.2.output = #["2"] ∧ ∀ depth,
        run (Invoker.upTo Host.standard (depth + 1)) source State.initial.1 State.initial.2 =
          outcome := by
  intro source
  have decided : (Phrase.ofSource source).map (fun program => decide program.CallsOutside) =
      .ok true := by decide +kernel
  have outside : ∀ program, Phrase.ofSource source = .ok program → program.CallsOutside := by
    intro program reads
    rw [reads] at decided
    exact of_decide_eq_true (Except.ok.inj decided)
  have prints : (run (Invoker.upTo Host.standard 1) source State.initial.1
      State.initial.2).2.output = #["2"] := by decide +kernel
  obtain ⟨outcome, ends, same⟩ := run_ends_of_callsOutside outside
  refine ⟨outside, outcome, ends, ?_, same⟩
  rw [← same 0]
  exact prints

end NanoScript
