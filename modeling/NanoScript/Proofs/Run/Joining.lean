import NanoScript.Proofs.Evaluation.InPlace
import NanoScript.Proofs.Reading.Joining

/-!
Contract: running two source texts as one.

Owns:
- statements that run one behind the other;
- the likeness of a run of statements and a run of the same statements moved, in which the functions
  that were there before stay where they are;
- the theorem that a source text with another one behind it on a new line runs as the first text and
  then, in the state that one leaves, as the second.
-/

namespace NanoScript

open Token

/-! ## Statements one behind the other -/

theorem Phrase.evaluateBlock_append (invoker : Invoker) (scope : ScopeId) (last : Value)
    (first second : List Phrase) :
    Phrase.evaluateBlock invoker scope last (first ++ second) =
      Phrase.evaluateBlock invoker scope last first >>= fun value =>
        Phrase.evaluateBlock invoker scope value second := by
  induction first generalizing last with
  | nil =>
      rw [List.nil_append, Phrase.evaluateBlock, pure_bind]
  | cons statement rest inductionHypothesis =>
      rw [List.cons_append, Phrase.evaluateBlock, Phrase.evaluateBlock, bind_assoc]
      exact bind_congr inductionHypothesis

/-- What the value would be without statements does not matter if there is one. -/
theorem Phrase.evaluateBlock_last (invoker : Invoker) (scope : ScopeId) (last other : Value)
    {statements : List Phrase} (nonempty : statements ≠ []) :
    Phrase.evaluateBlock invoker scope last statements =
      Phrase.evaluateBlock invoker scope other statements := by
  cases statements with
  | nil => exact absurd rfl nonempty
  | cons statement rest => rw [Phrase.evaluateBlock, Phrase.evaluateBlock]

/-! ## Moved statements -/

/-- A phrase occurs in the body of a function that a store holds and a text declared. -/
def Store.HoldsPhrase (store : Store) (text : Nat) (phrase : Phrase) : Prop :=
  ∃ function, store.Holds function ∧ function.bodyId.text = text ∧
    ∃ statement ∈ function.body, phrase.OccursIn statement

/-- A place in a text at which a function was declared that a store holds, or a place of a phrase in
the body of such a function. -/
def Store.HoldsPlace (store : Store) (text : Nat) (span : Span) : Prop :=
  (∃ function, store.Holds function ∧ function.bodyId = ⟨text, span⟩) ∨
    ∃ phrase, store.HoldsPhrase text phrase ∧ span ∈ phrase.places

/-- A phrase occurs in one of some statements. -/
def Phrase.OccursAmong (statements : List Phrase) (phrase : Phrase) : Prop :=
  ∃ statement ∈ statements, phrase.OccursIn statement

/-- A place of a phrase that occurs in one of some statements. -/
def Span.OccursAmong (statements : List Phrase) (span : Span) : Prop :=
  ∃ phrase : Phrase, phrase.OccursAmong statements ∧ span ∈ phrase.places

theorem Store.HoldsPhrase.inside {store : Store} {text : Nat} {part whole : Phrase}
    (held : store.HoldsPhrase text whole) (occurs : part.OccursIn whole) :
    store.HoldsPhrase text part := by
  obtain ⟨function, isHeld, declared, statement, member, inStatement⟩ := held
  exact ⟨function, isHeld, declared, statement, member, occurs.trans inStatement⟩

theorem Phrase.OccursAmong.inside {statements : List Phrase} {part whole : Phrase}
    (listed : whole.OccursAmong statements) (occurs : part.OccursIn whole) :
    part.OccursAmong statements := by
  obtain ⟨statement, member, inStatement⟩ := listed
  exact ⟨statement, member, occurs.trans inStatement⟩

/-- Statements of one text that stand, a number of bytes further on, in another text too. -/
structure Relocation where
  statements : List Phrase
  distance : Nat
  leftText : Nat
  rightText : Nat

/-- A phrase of a function that a store holds stays where it is, in its own text, and a phrase of
the statements is moved to the other text. -/
inductive Phrase.Follows (relocation : Relocation) (store : Store) :
    Nat → Nat → Phrase → Phrase → Prop
  | stay {text : Nat} {phrase : Phrase} (held : store.HoldsPhrase text phrase) :
      Follows relocation store text text phrase phrase
  | move {phrase : Phrase} (listed : phrase.OccursAmong relocation.statements) :
      Follows relocation store relocation.leftText relocation.rightText phrase
        (phrase.move relocation.distance)

/-- A place of a function that a store holds is left as it is, in its own text, and a place of the
statements is moved to the other text. -/
inductive Span.Follows (relocation : Relocation) (store : Store) : Nat → Nat → Span → Span → Prop
  | stay {text : Nat} {span : Span} (held : store.HoldsPlace text span) :
      Follows relocation store text text span span
  | move {span : Span} (listed : span.OccursAmong relocation.statements) :
      Follows relocation store relocation.leftText relocation.rightText span
        (span.move relocation.distance)

theorem Phrase.Follows.layer (relocation : Relocation) (store : Store) {leftText rightText : Nat}
    {left right : Phrase} (follows : Follows relocation store leftText rightText left right) :
    Phrase.Layer
      (Entry.Alike (Follows relocation store leftText rightText)
        (Span.Follows relocation store leftText rightText))
      (Follows relocation store leftText rightText)
      (Span.Follows relocation store leftText rightText) left right := by
  have layer : Phrase.Layer
      (Entry.Layer (Follows relocation store leftText rightText)
        (Span.Follows relocation store leftText rightText))
      (Follows relocation store leftText rightText)
      (Span.Follows relocation store leftText rightText) left right := by
    cases follows with
    | stay held =>
        exact left.layer_self (fun part member => .stay (held.inside (.of_parts member)))
          (fun part member => .stay (held.inside (.of_body member)))
          fun span member => .stay (.inr ⟨left, held, member⟩)
    | move listed =>
        exact left.layer_relocated (fun part member => .move (listed.inside (.of_parts member)))
          (fun part member => .move (listed.inside (.of_body member)))
          fun span member => .move ⟨left, listed, member⟩
  exact layer.mono (fun _ _ entries => entries.alike) (fun _ _ same => same) fun _ _ same => same

theorem Span.Follows.eq_or_eq_move {relocation : Relocation} {store : Store}
    {leftText rightText : Nat} {left right : Span}
    (follows : Follows relocation store leftText rightText left right) :
    right = left ∨ right = left.move relocation.distance := by
  cases follows with
  | stay held => exact .inl rfl
  | move listed => exact .inr rfl

/-- What follows a relocation of statements, and the places that are the host's own. -/
def Matching.ofMove (own : Span → Prop) (relocation : Relocation) (store : Store) : Matching where
  phrases := Phrase.Follows relocation store
  spans := Span.Follows relocation store
  places left right :=
    left = right ∧ own left ∨
      ∃ leftText rightText, Span.Follows relocation store leftText rightText left right
  layer := Phrase.Follows.layer relocation store
  reported follows := .inr ⟨_, _, follows⟩

/-- Two runs from one state, the first of some statements, the second of these statements moved. -/
def Likeness.ofMove (own : Span → Prop) (relocation : Relocation) (state : State)
    (rightTexts : Nat) : Likeness :=
  .inPlace (.ofMove own relocation state.store) state rightTexts

/-- The functions of a host look at no places but at its own, wherever the statements stand that
call them. -/
def Host.Placeless (own : Span → Prop) (host : Host) : Prop :=
  ∀ relocation state rightTexts, host.Respects (.ofMove own relocation state rightTexts)

theorem Host.standard_placeless (own : Span → Prop) : Host.standard.Placeless own :=
  fun _ _ _ => Host.standard_respects _

section

variable {own : Span → Prop} {relocation : Relocation} {left right : State}

/-- What is held stays as it is, its text included. -/
theorem Likeness.ofMove_states (scopes : right.store.scopes = left.store.scopes)
    (output : right.output = left.output) :
    (Likeness.ofMove own relocation left right.store.texts).States left right := by
  refine Likeness.inPlace_states scopes output fun function held => ?_
  refine ⟨rfl, rfl, List.forall₂_same.2 fun statement member => ?_, ?_,
    Likeness.inPlace_scopes.2 rfl⟩
  · exact .stay ⟨function, held, rfl, statement, member, .here⟩
  · exact .stay (.inl ⟨function, held, rfl⟩)

/-- A fault is left as it is, or moved with the statements. -/
theorem Likeness.ofMove_faults {rightTexts : Nat} {leftFault rightFault : Fault}
    (faults : (Likeness.ofMove own relocation left rightTexts).Faults leftFault rightFault) :
    rightFault = leftFault ∨ rightFault = leftFault.move relocation.distance := by
  have places : rightFault.span = leftFault.span ∨
      rightFault.span = leftFault.span.move relocation.distance := by
    rcases faults.span with ⟨same, _⟩ | ⟨_, _, follows⟩
    · exact .inl same.symm
    · exact follows.eq_or_eq_move
  rcases places with same | moved
  · exact .inl (faults.eq_of_span same)
  · exact .inr (faults.eq_relocated moved)

/-- Statements and the same statements moved run alike. -/
theorem Phrase.evaluateBlock_move {host : Host} (placeless : host.Placeless own) (depth : Nat)
    (scope : ScopeId) (last : Value) (nonempty : relocation.statements ≠ [])
    (scopes : right.store.scopes = left.store.scopes) (output : right.output = left.output) :
    let invoker := Invoker.upTo host depth
    (Likeness.ofMove own relocation left right.store.texts).Runs
      ((Phrase.evaluateBlock (invoker.within relocation.leftText) scope .null
        relocation.statements).outcome left)
      ((Phrase.evaluateBlock (invoker.within relocation.rightText) scope last
        (relocation.statements.map (move relocation.distance))).outcome right) := by
  intro invoker
  have movedNonempty : relocation.statements.map (move relocation.distance) ≠ [] :=
    fun empty => nonempty (List.map_eq_nil_iff.1 empty)
  rw [Phrase.evaluateBlock_last _ _ last .null movedNonempty]
  have respects : host.Respects (.ofMove own relocation left right.store.texts) :=
    placeless relocation left right.store.texts
  have alike : List.Forall₂
      (Phrase.Follows relocation left.store relocation.leftText relocation.rightText)
      relocation.statements (relocation.statements.map (move relocation.distance)) :=
    List.forall₂_map_right_iff.2 (List.forall₂_same.2 fun statement member =>
      Phrase.Follows.move ⟨statement, member, .here⟩)
  have inScope : (Likeness.ofMove own relocation left right.store.texts).Scopes scope scope :=
    Likeness.inPlace_scopes.2 rfl
  have similar := Phrase.evaluateBlock_similar ((respects.trusts depth).within _ _) inScope
    relocation.statements alike .null
  exact similar.runs (Likeness.ofMove_states scopes output)

/-- While statements run, no further text is read. -/
theorem Phrase.evaluateBlock_texts {host : Host} (placeless : host.Placeless own)
    (depth text : Nat) (scope : ScopeId) (statements : List Phrase) (state : State) :
    ((Phrase.evaluateBlock ((Invoker.upTo host depth).within text) scope .null
      statements).outcome state).2.store.texts = state.store.texts := by
  by_cases empty : statements = []
  · rw [empty]
    rfl
  · let still : Relocation := ⟨statements, 0, text, text⟩
    have runs : (Likeness.ofMove own still state state.store.texts).Runs _ _ :=
      Phrase.evaluateBlock_move placeless depth scope .null empty rfl rfl
    exact runs.states.counted.1

end

/-- A fault that is either moved or left as it is, twice and in between as well, is moved both times
or left as it is both times. -/
theorem Fault.moves_or_stays {distance : Nat} {fault near far : Fault}
    (isNear : near = fault ∨ near = fault.move 1)
    (isFar : far = fault ∨ far = fault.move (distance + 1))
    (between : far = near ∨ far = near.move distance) :
    (near = fault.move 1 ∧ far = fault.move (distance + 1)) ∨ (near = fault ∧ far = fault) := by
  -- A fault that stays is one that is moved by nothing, so that only distances are compared.
  have still : fault.move 0 = fault := fault.relocated_id
  rcases isNear with rfl | rfl <;> rcases isFar with rfl | rfl
  · exact .inr ⟨rfl, rfl⟩
  · rw [← still, move_move, move_move, move_inj, move_inj] at between
    omega
  · rw [← still, move_move, move_move, move_inj, move_inj] at between
    omega
  · exact .inl ⟨rfl, rfl⟩

/-- When statements fail with a fault, the same statements moved by one byte fail with it moved by
one byte exactly if those moved further fail with it moved as far. -/
theorem Phrase.evaluateBlock_moves_or_stays {host : Host} {own : Span → Prop}
    (placeless : host.Placeless own) (depth : Nat) (scope : ScopeId) (last : Value)
    {statements : List Phrase} (nonempty : statements ≠ []) {left right : State}
    (scopes : right.store.scopes = left.store.scopes) (output : right.output = left.output)
    (leftText rightText distance : Nat) {fault : Fault} :
    let invoker := Invoker.upTo host depth
    let still :=
      (Phrase.evaluateBlock (invoker.within leftText) scope .null statements).outcome left
    let near := (Phrase.evaluateBlock (invoker.within leftText) scope .null
      (statements.map (move 1))).outcome left
    let far := (Phrase.evaluateBlock (invoker.within rightText) scope last
      (statements.map (move (distance + 1)))).outcome right
    still.1 = .error (.fault fault) →
      (near.1 = .error (.fault (fault.move 1)) ∧
          far.1 = .error (.fault (fault.move (distance + 1)))) ∨
        (near.1 = .error (.fault fault) ∧ far.1 = .error (.fault fault)) := by
  intro invoker still near far fails
  have twice : statements.map (move (distance + 1)) =
      (statements.map (move 1)).map (move distance) := by
    rw [List.map_map]
    refine List.map_congr_left fun phrase _ => ?_
    exact (congrArg (phrase.move ·) (Nat.add_comm _ _)).trans (phrase.move_move _ _).symm
  -- The three runs are compared two by two.
  let toNear : Relocation := ⟨statements, 1, leftText, leftText⟩
  let toFar : Relocation := ⟨statements, distance + 1, leftText, rightText⟩
  let between : Relocation := ⟨statements.map (move 1), distance, leftText, rightText⟩
  have stillNear : (Likeness.ofMove own toNear left left.store.texts).Runs still near :=
    Phrase.evaluateBlock_move placeless depth scope .null nonempty rfl rfl
  have stillFar : (Likeness.ofMove own toFar left right.store.texts).Runs still far :=
    Phrase.evaluateBlock_move placeless depth scope last nonempty scopes output
  have nearFar : (Likeness.ofMove own between left right.store.texts).Runs near far := by
    rw [show far = (Phrase.evaluateBlock (invoker.within rightText) scope last
      ((statements.map (move 1)).map (move distance))).outcome right by rw [← twice]]
    exact Phrase.evaluateBlock_move placeless depth scope last
      (fun empty => nonempty (List.map_eq_nil_iff.1 empty)) scopes output
  obtain ⟨nearFault, nearFails, nearFaults⟩ := stillNear.exists_fault fails
  obtain ⟨farFault, farFails, farFaults⟩ := stillFar.exists_fault fails
  obtain ⟨other, otherFails, otherFaults⟩ := nearFar.exists_fault nearFails
  cases farFails.symm.trans otherFails
  rw [nearFails, farFails]
  have together := Fault.moves_or_stays (Likeness.ofMove_faults nearFaults)
    (Likeness.ofMove_faults farFaults) (Likeness.ofMove_faults otherFaults)
  rcases together with ⟨rfl, rfl⟩ | ⟨rfl, rfl⟩
  · exact .inl ⟨rfl, rfl⟩
  · exact .inr ⟨rfl, rfl⟩

/-! ## Two source texts -/

/-- A source text on the next line has the same statements, moved by the line break. -/
theorem Phrase.ofSource_next_line {source : String} {program : Phrase}
    (reads : Phrase.ofSource source = .ok program)
    (noParen : (scan source).map Reading.nextKind ≠ .ok .openParen) :
    Phrase.ofSource ("\n" ++ source) =
      .ok (.program (program.parts.map (Phrase.move 1)) ⟨0, ("\n" ++ source).utf8ByteSize⟩) := by
  have nothing : (Phrase.ofSource "").map (fun program => program.parts.isEmpty) = .ok true := by
    decide +kernel
  cases emptyReads : Phrase.ofSource "" with
  | error error =>
      rw [emptyReads] at nothing
      cases nothing
  | ok empty =>
      rw [emptyReads] at nothing
      have joined := Phrase.ofSource_joined emptyReads reads noParen
      rw [List.isEmpty_iff.1 (Except.ok.inj nothing)] at joined
      exact joined

/-- A run of a source text is the evaluation of its statements. -/
theorem run_eq_evaluateBlock (invoker : Invoker) {source : String} {program : Phrase}
    (scope : ScopeId) (state : State) (reads : Phrase.ofSource source = .ok program) :
    run invoker source scope state =
      (Phrase.evaluateBlock (invoker.within state.store.texts) scope .null
        program.parts).outcome state.addText := by
  rw [Phrase.eq_program_of_ofSource reads] at reads
  exact run_of_reads invoker reads

/-- A source text with another one behind it on a new line spells out the statements of both, those
of the second one moved.  Run as one text, they fail as the first text does, in the state in which
it failed, or else they go on as the second text does in the state that the first one leaves.

What was declared before stays where it is, and what the second text declares is moved: the text of
a function tells which, since the joined text has another number than the second one.  A fault is
moved exactly if a line break in front of the second text moves it as well. -/
theorem run_joined {host : Host} {own : Span → Prop} (placeless : host.Placeless own)
    (depth : Nat) (scope : ScopeId) (state : State) {first second : String}
    {firstProgram secondProgram : Phrase} (firstReads : Phrase.ofSource first = .ok firstProgram)
    (secondReads : Phrase.ofSource second = .ok secondProgram)
    (noParen : (scan second).map Reading.nextKind ≠ .ok .openParen) :
    let joined := first ++ "\n" ++ second
    let distance := first.utf8ByteSize + 1
    let invoker := Invoker.upTo host depth
    let firstRun := run invoker first scope state
    let secondRun := run invoker second scope firstRun.2
    let joinedRun := run invoker joined scope state
    let relocation : Relocation :=
      ⟨secondProgram.parts, distance, firstRun.2.store.texts, state.store.texts⟩
    Phrase.ofSource joined =
        .ok (.program (firstProgram.parts ++ secondProgram.parts.map (Phrase.move distance))
          ⟨0, joined.utf8ByteSize⟩) ∧
      (∀ failure, firstRun.1 = .error failure → joinedRun = firstRun) ∧
      (secondProgram.parts = [] → joinedRun = firstRun) ∧
      ∀ value, firstRun.1 = .ok value → secondProgram.parts ≠ [] →
        firstRun.2.store.texts = state.store.texts + 1 ∧
          (Likeness.ofMove own relocation firstRun.2.addText firstRun.2.store.texts).Runs secondRun
            joinedRun ∧
          joinedRun.2.output = secondRun.2.output ∧
          ∀ fault, secondRun.1 = .error (.fault fault) →
            let nextLineRun := run invoker ("\n" ++ second) scope firstRun.2
            (nextLineRun.1 = .error (.fault (fault.move 1)) ∧
                joinedRun.1 = .error (.fault (fault.move distance))) ∨
              (nextLineRun.1 = .error (.fault fault) ∧ joinedRun.1 = .error (.fault fault)) := by
  intro joined distance invoker firstRun secondRun joinedRun relocation
  have joinedReads := Phrase.ofSource_joined firstReads secondReads noParen
  have nextLineReads := Phrase.ofSource_next_line secondReads noParen
  have isFirst : firstRun = _ := run_eq_evaluateBlock invoker scope state firstReads
  have isSecond : secondRun = _ := run_eq_evaluateBlock invoker scope firstRun.2 secondReads
  have isNextLine : run invoker ("\n" ++ second) scope firstRun.2 = _ :=
    run_eq_evaluateBlock invoker scope firstRun.2 nextLineReads
  have isJoined : joinedRun =
      (Phrase.evaluateBlock (invoker.within state.store.texts) scope .null
          firstProgram.parts >>= fun value =>
        Phrase.evaluateBlock (invoker.within state.store.texts) scope value
          (secondProgram.parts.map (Phrase.move distance))).outcome state.addText := by
    rw [← Phrase.evaluateBlock_append]
    exact run_eq_evaluateBlock invoker scope state joinedReads
  refine ⟨joinedReads, ?_, ?_, ?_⟩
  · intro failure fails
    rw [isJoined, Evaluation.outcome_bind_of_error (isFirst ▸ fails), ← isFirst, ← fails]
  · intro empty
    rw [isJoined, isFirst, empty]
    exact congrArg (fun computation => Evaluation.outcome computation state.addText) (bind_pure _)
  · intro value gives nonempty
    rw [Evaluation.outcome_bind_of_ok (isFirst ▸ gives), ← isFirst] at isJoined
    have runs : (Likeness.ofMove own relocation firstRun.2.addText firstRun.2.store.texts).Runs
        secondRun joinedRun := by
      rw [isJoined, isSecond]
      exact Phrase.evaluateBlock_move placeless depth scope value nonempty rfl rfl
    refine ⟨?_, runs, (runs.states.output_eq rfl).symm, ?_⟩
    · rw [isFirst]
      exact Phrase.evaluateBlock_texts placeless depth _ scope _ state.addText
    · intro fault fails nextLineRun
      rw [isSecond] at fails
      rw [show nextLineRun = _ from isNextLine, isJoined]
      have scopes : firstRun.2.store.scopes = firstRun.2.addText.store.scopes := rfl
      exact Phrase.evaluateBlock_moves_or_stays placeless depth scope value nonempty scopes rfl _ _
        _ fails

/-- A function is declared in the first text and called in the second, which declares the variable
that the function reads. -/
theorem joined_declaration_and_call_run_alike :
    let first := "fn f() { x }"
    let second := "let x = 1; print(f())"
    let invoker := Invoker.upTo Host.standard 1
    let firstRun := run invoker first State.initial.1 State.initial.2
    let secondRun := run invoker second State.initial.1 firstRun.2
    let joinedRun := run invoker (first ++ "\n" ++ second) State.initial.1 State.initial.2
    ∃ secondProgram, Phrase.ofSource second = .ok secondProgram ∧
      (Likeness.ofMove (fun _ => False)
        ⟨secondProgram.parts, first.utf8ByteSize + 1, firstRun.2.store.texts, 0⟩
        firstRun.2.addText firstRun.2.store.texts).Runs secondRun joinedRun ∧
      joinedRun.2.output = secondRun.2.output ∧ secondRun.2.output = #["1"] := by
  intro first second invoker firstRun secondRun joinedRun
  have found {ε α : Type} (result : Except ε α) (isOk : result.isOk = true) :
      ∃ value, result = .ok value := by
    cases result with
    | ok value => exact ⟨value, rfl⟩
    | error _ => cases isOk
  obtain ⟨firstProgram, firstReads⟩ := found (Phrase.ofSource first) (by decide +kernel)
  obtain ⟨secondProgram, secondReads⟩ := found (Phrase.ofSource second) (by decide +kernel)
  obtain ⟨value, gives⟩ := found firstRun.1 (by decide +kernel)
  have nonempty : secondProgram.parts ≠ [] := by
    intro empty
    have isEmpty : (Phrase.ofSource second).map (fun program => program.parts.isEmpty) =
        .ok true := by
      rw [secondReads, Except.map, empty]
      rfl
    exact absurd isEmpty (by decide +kernel)
  have prints : secondRun.2.output = #["1"] := by decide +kernel
  obtain ⟨_, _, _, goesOn⟩ := run_joined (Host.standard_placeless _) 1 State.initial.1
    State.initial.2 firstReads secondReads (by decide +kernel)
  obtain ⟨_, runs, outputs, _⟩ := goesOn value gives nonempty
  exact ⟨secondProgram, secondReads, runs, outputs, prints⟩

end NanoScript
