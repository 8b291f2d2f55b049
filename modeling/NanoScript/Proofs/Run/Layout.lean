import NanoScript.Proofs.Evaluation.InPlace
import NanoScript.Proofs.Reading.Extent
import NanoScript.Proofs.Run.Start

/-!
Contract: layout does not matter, and places only serve messages.

Owns:
- values, scopes and failures with all places forgotten;
- the alignment of two source texts with the same words in the same order;
- the theorem that such texts spell out programs that are equal up to places, or fail at the same
  tokens, and that their runs from the start are equal up to places.

Which tokens a place reaches from and to is the same in both texts, although its bytes are not.
-/

namespace NanoScript

open Token

/-! ## Forgetting places -/

/-- A function with the place of its declaration and the places in its body forgotten. -/
def Function.bare (function : Function) : Function :=
  { function with
    body := function.body.map Phrase.bare
    bodyId := ⟨function.bodyId.text, Span.empty 0⟩ }

/-- A value with the places in the bodies of its functions forgotten. -/
def Value.bare : Value → Value :=
  Value.mapFunctions Function.bare

/-- A scope with the places in the bodies of its functions forgotten. -/
def Scope.bare : Scope → Scope :=
  Scope.mapFunctions Function.bare

/-- A syntax error with its place forgotten. -/
def SyntaxError.bare : SyntaxError → SyntaxError
  | .unexpectedToken found expected =>
      .unexpectedToken { found with span := Span.empty 0 } expected
  | .unexpectedEnd expected _ => .unexpectedEnd expected (Span.empty 0)
  | .unrecognizedCharacter fault => .unrecognizedCharacter { fault with span := Span.empty 0 }
  | .constantWithoutValue name _ => .constantWithoutValue name (Span.empty 0)
  | .parameterNotAName _ => .parameterNotAName (Span.empty 0)
  | .malformedNumber text _ => .malformedNumber text (Span.empty 0)

/-- A fault with its place forgotten. -/
def Fault.bare : Fault → Fault :=
  Fault.relocated fun _ => Span.empty 0

/-- A failure with its place forgotten. -/
def Failure.bare : Failure → Failure
  | .syntaxError error => .syntaxError error.bare
  | .fault cause => .fault cause.bare
  | .tooDeep => .tooDeep

/-- A value or a failure with all places forgotten. -/
def Failure.bareOutcome : Except Failure Value → Except Failure Value
  | .ok value => .ok value.bare
  | .error failure => .error failure.bare

theorem Likeness.Faults.bare_eq {likeness : Likeness} {left right : Fault}
    (faults : likeness.Faults left right) : left.bare = right.bare := by
  cases faults <;> rfl

/-! ## Texts with the same words -/

namespace Reading

/-- Tokens correspond if they stand at one index, and places if they reach from and to tokens at the
same indices. -/
def Alignment.ofWords {leftSize rightSize : Nat} {left right : List Token}
    (leftOrder : InOrder leftSize left) (rightOrder : InOrder rightSize right)
    (sameWords : words left = words right) : Alignment where
  tokens leftToken rightToken :=
    ∃ index, left[index]? = some leftToken ∧ right[index]? = some rightToken
  spans leftSpan rightSpan :=
    ∃ first last, Covers left first last leftSpan ∧ Covers right first last rightSpan
  kind := by
    rintro leftToken rightToken ⟨index, isLeft, isRight⟩
    have same := congrArg (fun words => words[index]?) sameWords
    simp only [words, List.getElem?_map, isLeft, isRight] at same
    exact congrArg Word.kind (Option.some.inj same)
  text := by
    rintro leftToken rightToken ⟨index, isLeft, isRight⟩
    have same := congrArg (fun words => words[index]?) sameWords
    simp only [words, List.getElem?_map, isLeft, isRight] at same
    exact congrArg Word.text (Option.some.inj same)
  span := fun ⟨index, isLeft, isRight⟩ =>
    ⟨index, index, covers_token isLeft, covers_token isRight⟩
  merge := fun ⟨_, _, leftCovers, rightCovers⟩ ⟨_, _, otherCovers, anotherCovers⟩ =>
    ⟨_, _, leftCovers.merge leftOrder otherCovers, rightCovers.merge rightOrder anotherCovers⟩

section

variable {leftSize rightSize : Nat} {left right : List Token}
  (leftOrder : InOrder leftSize left) (rightOrder : InOrder rightSize right)
  (sameWords : words left = words right)

theorem Alignment.ofWords_tokens :
    List.Forall₂ (ofWords leftOrder rightOrder sameWords).tokens left right := by
  refine List.forall₂_iff_get.2 ⟨?_, fun index leftBound rightBound => ⟨index, ?_, ?_⟩⟩
  · have lengths := congrArg List.length sameWords
    simpa [words] using lengths
  · simp
  · simp

/-- Texts with the same words spell out corresponding programs, or fail at corresponding places. -/
theorem Alignment.ofWords_programs {leftSource rightSource : String}
    (leftScan : scan leftSource = .ok left) (rightScan : scan rightSource = .ok right) :
    (ofWords leftOrder rightOrder sameWords).Programs (Phrase.ofSource leftSource)
      (Phrase.ofSource rightSource) := by
  have tokens := ofWords_tokens leftOrder rightOrder sameWords
  rw [Phrase.ofSource_of_scan leftScan, Phrase.ofSource_of_scan rightScan]
  refine ofTokens_aligned tokens ?_
  -- The place behind all tokens is that of the end-of-input mark.
  obtain ⟨leftBefore, leftSplit, _⟩ := (scans_of_scan leftScan).exists_before
  obtain ⟨rightBefore, rightSplit, _⟩ := (scans_of_scan rightScan).exists_before
  have lengths := tokens.length_eq
  rw [leftSplit, rightSplit, List.length_append, List.length_append] at lengths
  have atMark : right[leftBefore.length]? =
      some (endOfInput (0 + Text.byteLength rightSource.toList)) := by
    rw [Nat.add_right_cancel lengths, rightSplit]
    exact List.getElem?_concat_length
  have atLeftMark : left[leftBefore.length]? =
      some (endOfInput (0 + Text.byteLength leftSource.toList)) := by
    rw [leftSplit]
    exact List.getElem?_concat_length
  rw [show behindAll left = (endOfInput (0 + Text.byteLength leftSource.toList)).span by
      rw [leftSplit, behindAll_concat]; rfl,
    show behindAll right = (endOfInput (0 + Text.byteLength rightSource.toList)).span by
      rw [rightSplit, behindAll_concat]; rfl]
  exact Alignment.span _ ⟨leftBefore.length, atLeftMark, atMark⟩

end

theorem Alignment.Errors.bare_eq {alignment : Alignment} {leftError rightError : SyntaxError}
    (errors : alignment.Errors leftError rightError) : leftError.bare = rightError.bare := by
  cases errors with
  | @unexpectedToken leftToken rightToken expected found =>
      exact congrArg₂ (fun kind text => SyntaxError.unexpectedToken ⟨kind, text, _⟩ expected)
        (alignment.kind found) (alignment.text found)
  | malformedNumber found => exact congrArg (SyntaxError.malformedNumber · _) (alignment.text found)
  | _ => rfl

theorem Alignment.Errors.span {alignment : Alignment} {leftError rightError : SyntaxError}
    (errors : alignment.Errors leftError rightError) :
    alignment.spans leftError.span rightError.span := by
  cases errors with
  | unexpectedToken found => exact alignment.span found
  | malformedNumber found => exact alignment.span found
  | _ => assumption

theorem Alignment.Programs.bare_eq {alignment : Alignment} {leftProgram rightProgram : Phrase}
    (programs : alignment.Programs (.ok leftProgram) (.ok rightProgram)) :
    leftProgram.bare = rightProgram.bare := by
  cases programs with
  | ok bodies _ _ =>
      unfold Phrase.bare
      rw [Phrase.rewritten_program, Phrase.rewritten_program,
        bodies.map_eq fun alike => alike.rewritten_eq _]

end Reading

/-! ## Runs -/

section

variable {state : State} {alignment : Reading.Alignment}

theorem Reading.Alignment.layer {left right : Phrase} (alike : alignment.Phrases left right) :
    Phrase.Layer (Entry.Alike alignment.Phrases alignment.spans) alignment.Phrases alignment.spans
      left right :=
  Phrase.Layer.mono (Phrase.Corresponds.layer alike) (fun _ _ entries => entries.alike)
    (fun _ _ same => same) (fun _ _ same => same)

/-- Two runs from one state of programs whose tokens are aligned. -/
def Likeness.ofAlignment (state : State) (alignment : Reading.Alignment) : Likeness :=
  .inPlace (.inOneText alignment.Phrases alignment.spans alignment.layer) state state.store.texts

theorem Likeness.ofAlignment_functions {left right : Function}
    (functions : (Likeness.ofAlignment state alignment).Functions left right) :
    left.bare = right.bare := by
  obtain ⟨name, parameters, body, ⟨text, _⟩, closure⟩ := left
  obtain ⟨_, _, _, ⟨_, _⟩, _⟩ := right
  cases functions.name
  cases functions.parameters
  cases functions.place.1
  cases Likeness.inPlace_scopes.1 functions.closure
  exact congrArg (Function.mk name parameters · ⟨text, Span.empty 0⟩ closure)
    (functions.body.map_eq fun alike => alike.2.bare_eq)

theorem Likeness.ofAlignment_scope? {left right : State}
    (states : (Likeness.ofAlignment state alignment).States left right) (id : ScopeId) :
    (left.store.scope? id).map Scope.bare = (right.store.scope? id).map Scope.bare := by
  have same : left.mapFunctions Function.bare = right.mapFunctions Function.bare :=
    inPlace_mapFunctions_eq ofAlignment_functions states
  unfold Scope.bare
  rw [← State.scope?_mapFunctions, ← State.scope?_mapFunctions, same]

/-- Corresponding programs run alike from a state without declared functions. -/
theorem Reading.Alignment.Programs.runs (depth text : Nat) (scope : ScopeId)
    {leftProgram rightProgram : Phrase}
    (programs : alignment.Programs (.ok leftProgram) (.ok rightProgram))
    (none : ∀ function, ¬ state.store.Holds function) :
    let invoker := (Invoker.upTo Host.standard depth).within text
    (Likeness.ofAlignment state alignment).Runs
      ((leftProgram.evaluate invoker scope).outcome state)
      ((rightProgram.evaluate invoker scope).outcome state) := by
  have states : (Likeness.ofAlignment state alignment).States state state :=
    Likeness.inPlace_states rfl rfl fun function held => absurd held (none function)
  refine Likeness.Similar.runs ?_ states
  cases programs with
  | ok bodies _ _ =>
      exact Phrase.evaluateBlock_similar ((Invoker.trusts_upTo_upTo depth).within text text)
        (Likeness.inPlace_scopes.2 rfl) _ (bodies.imp fun _ _ alike => ⟨rfl, alike⟩) .null

theorem Likeness.Runs.bareOutcome_eq {left right : Except Failure Value × State}
    (runs : (Likeness.ofAlignment state alignment).Runs left right) :
    Failure.bareOutcome left.1 = Failure.bareOutcome right.1 := by
  cases runs with
  | value values states =>
      exact congrArg Except.ok (values.mapFunctions_eq Likeness.ofAlignment_functions)
  | fault faults states =>
      exact congrArg (fun fault => Except.error (Failure.fault fault)) faults.bare_eq
  | tooDeep states => rfl

end

/-- Two source texts with the same words in the same order: either both are programs, equal up to
places, or both fail in the same way at the same tokens; and when they are run from the start, they
print the same lines, give values or failures that are equal up to places, and leave the same scopes
with bindings that are equal up to places. -/
theorem run_layout_irrelevant (depth : Nat) {left right : String}
    {leftTokens rightTokens : List Token} (leftScan : scan left = .ok leftTokens)
    (rightScan : scan right = .ok rightTokens) (sameWords : words leftTokens = words rightTokens) :
    ((∃ leftProgram rightProgram, Phrase.ofSource left = .ok leftProgram ∧
        Phrase.ofSource right = .ok rightProgram ∧ leftProgram.bare = rightProgram.bare) ∨
      ∃ leftError rightError, Phrase.ofSource left = .error leftError ∧
        Phrase.ofSource right = .error rightError ∧ leftError.bare = rightError.bare ∧
        ∃ first last, Covers leftTokens first last leftError.span ∧
          Covers rightTokens first last rightError.span) ∧
      let leftRun := run (Invoker.upTo Host.standard depth) left State.initial.1 State.initial.2
      let rightRun := run (Invoker.upTo Host.standard depth) right State.initial.1 State.initial.2
      Failure.bareOutcome leftRun.1 = Failure.bareOutcome rightRun.1 ∧
        leftRun.2.output = rightRun.2.output ∧
        ∀ id, (leftRun.2.store.scope? id).map Scope.bare =
          (rightRun.2.store.scope? id).map Scope.bare := by
  have programs := Reading.Alignment.ofWords_programs (scans_of_scan leftScan).inOrder.2
    (scans_of_scan rightScan).inOrder.2 sameWords leftScan rightScan
  revert programs
  cases leftReads : Phrase.ofSource left <;> cases rightReads : Phrase.ofSource right <;>
    intro programs
  · cases programs with
    | error errors =>
        rw [run_of_fails _ leftReads, run_of_fails _ rightReads]
        refine ⟨.inr ⟨_, _, rfl, rfl, errors.bare_eq, errors.span⟩, ?_, rfl, fun _ => rfl⟩
        exact congrArg (fun error => Except.error (Failure.syntaxError error)) errors.bare_eq
  · cases programs
  · cases programs
  · have none : ∀ function, ¬ State.initial.2.addText.store.Holds function :=
      State.not_holds_initial
    have runs := programs.runs depth State.initial.2.store.texts State.initial.1 none
    rw [run_of_reads _ leftReads, run_of_reads _ rightReads]
    exact ⟨.inl ⟨_, _, rfl, rfl, programs.bare_eq⟩, runs.bareOutcome_eq, runs.states.output_eq rfl,
      Likeness.ofAlignment_scope? runs.states⟩

/-- A function that divides by its argument, on one line and on several. -/
theorem spread_division_runs_alike :
    let onOneLine := "fn f(n) { 1 / n } f(0)"
    let onMany := "fn f(n) \x7b\n  1/n\n\x7d\nf( 0 )\n"
    let oneRun := run (Invoker.upTo Host.standard 2) onOneLine State.initial.1 State.initial.2
    let manyRun := run (Invoker.upTo Host.standard 2) onMany State.initial.1 State.initial.2
    (scan onOneLine).map words = (scan onMany).map words ∧
      Failure.bareOutcome oneRun.1 = Failure.bareOutcome manyRun.1 ∧
      oneRun.2.output = manyRun.2.output := by
  intro onOneLine onMany oneRun manyRun
  have sameWords : (scan onOneLine).map words = (scan onMany).map words := by decide +kernel
  have isOk : (scan onOneLine).isOk = true := by decide +kernel
  refine ⟨sameWords, ?_⟩
  revert sameWords isOk
  cases oneScan : scan onOneLine <;> cases manyScan : scan onMany <;> intro sameWords isOk
  · cases isOk
  · cases sameWords
  · cases sameWords
  · obtain ⟨_, outcomes, outputs, _⟩ :=
      run_layout_irrelevant 2 oneScan manyScan (Except.ok.inj sameWords)
    exact ⟨outcomes, outputs⟩

end NanoScript
