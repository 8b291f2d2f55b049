import NanoScript.Proofs.Reading.Interpretation

/-!
Contract: procedures make progress and end, whatever the tokens are.

Owns:
- the condition on a body that carries all the rest: before it succeeds it has taken a token, it
  takes without asking only what it has seen, and before it has taken a token it enters procedures
  of lower rungs only;
- the state of a run part of the way, which every step keeps;
- that every procedure runs to its end, with what its reader yields;
- that a procedure which succeeds has taken tokens from the front, and that another round of a loop
  has fewer tokens before it.

The condition is checked on the bodies, without regard to any tokens.  The measure is the count of
the tokens that remain and, on the same tokens, the rung of the procedure.
-/

namespace NanoScript.Reading

open Relation

variable {α : Type} {behind : Span}

/-! ## The condition on bodies -/

/-- The rung of a procedure: the procedures that it enters before it has taken a token stand on
lower ones. -/
def Procedure.rung : Procedure → Nat
  | .program => 9
  | .statements _ => 8
  | .statement => 7
  | .expression => 6
  | .objectLiteral => 5
  | .sum => 4
  | .product => 3
  | .call => 2
  | .member | .chainedCall _ | .entries => 1
  | _ => 0

/-- Whatever the tokens are, a script takes a token before it succeeds, unless its procedure may do
without; it takes without asking only what it has seen; and before it has taken a token it enters
lower rungs only. -/
def Script.Progresses (within : Procedure) : Script α → (taken seen : Bool) → Prop
  | .yield _, taken, _ => taken = true ∨ within.mayTakeNone = true
  | .fail _, _, _ => True
  | .look next, taken, _ => ∀ token, (next token).Progresses within taken token.isSome
  | .advance next, _, seen => seen = true ∧ ∀ token, (next token).Progresses within true false
  | .request _ next, _, _ => ∀ token, (next token).Progresses within true false
  | .enter procedure next, taken, _ =>
      (taken = true ∨ procedure.rung < within.rung) ∧
        ∀ value, (next value).Progresses within (taken || !procedure.mayTakeNone) false

namespace Script

variable {within : Procedure} {taken seen : Bool}

@[simp] theorem progresses_ite {condition : Prop} [Decidable condition] (left right : Script α) :
    (if condition then left else right).Progresses within taken seen ↔
      (condition → left.Progresses within taken seen) ∧
        (¬ condition → right.Progresses within taken seen) := by
  split <;> simp [*]

/-- What is seen is the end of input, or a token. -/
@[simp] theorem progresses_lookKind (next : Token.Kind → Script α) :
    (lookKind next).Progresses within taken seen ↔
      (next .endOfInput).Progresses within taken false ∧
        ∀ kind, (next kind).Progresses within taken true := by
  constructor
  · intro progresses
    exact ⟨progresses none, fun kind => progresses (some ⟨kind, "", .empty 0⟩)⟩
  · rintro ⟨atEnd, atToken⟩ (_ | token)
    · exact atEnd
    · exact atToken token.kind

theorem progresses_lookOperator {next : Option Operator → Script α}
    (without : ∀ seen, (next none).Progresses within taken seen)
    (atOperator : ∀ operator, (next (some operator)).Progresses within taken true) :
    (lookOperator next).Progresses within taken seen := by
  rintro (_ | token)
  · exact without false
  · change (next (nextOperator? [token])).Progresses within taken true
    cases nextOperator? [token] with
    | none => exact without true
    | some operator => exact atOperator operator

@[simp] theorem progresses_expectKind (kind : Token.Kind) (expected : Expectation)
    (next : Token → Script α) :
    (expectKind kind expected next).Progresses within taken seen ↔
      ∀ token : Token, token.kind = kind → (next token).Progresses within true false := by
  simp [expectKind, Progresses]

end Script

/-- All bodies meet the condition. -/
theorem progresses_body (procedure : Procedure) :
    procedure.body.Progresses procedure false false := by
  cases procedure with
  | statement =>
      rw [Procedure.body, Script.progresses_lookKind]
      refine ⟨?_, fun kind => ?_⟩
      · simp [Script.Progresses, Procedure.rung, Procedure.mayTakeNone, Procedure.loop?]
      · cases kind <;>
          simp [Script.Progresses, Procedure.rung, Procedure.mayTakeNone, Procedure.loop?]
  | functionDeclaration keyword =>
      rw [Procedure.body, Script.progresses_expectKind]
      refine fun name _ => ⟨.inl rfl, fun list => ?_⟩
      cases names : parameterNames list.1 <;> simp [names, Script.Progresses]
  | sumTail left =>
      rw [Procedure.body]
      refine Script.progresses_lookOperator (fun _ => Or.inr rfl) fun operator => ?_
      cases (some operator).filter Operator.isAdditive <;>
        simp [Script.Progresses, Procedure.mayTakeNone, Procedure.loop?]
  | productTail left =>
      rw [Procedure.body]
      refine Script.progresses_lookOperator (fun _ => Or.inr rfl) fun operator => ?_
      cases (some operator).filter Operator.isMultiplicative <;>
        simp [Script.Progresses, Procedure.mayTakeNone, Procedure.loop?]
  | operand =>
      intro token
      cases reads : Number.read? token.text <;> simp [Script.Progresses, reads]
  | _ => simp [Procedure.body, Script.Progresses, Procedure.rung, Procedure.mayTakeNone,
      Procedure.loop?]

/-! ## What a run takes -/

/-- A run of a procedure part of the way: the tokens that remain are the last of those it was given,
fewer if it has taken one, and not none if it has seen one. -/
def Underway (procedure : Procedure) (given : List Token) (script : Script α)
    (tokens : List Token) : Prop :=
  tokens <:+ given ∧ ∃ taken seen, script.Progresses procedure taken seen ∧
    (taken = true → tokens.length < given.length) ∧ (seen = true → tokens ≠ [])

section Underway

variable {procedure : Procedure} {given tokens rest : List Token} {script later : Script α}

namespace Underway

theorem start (procedure : Procedure) (given : List Token) :
    Underway procedure given procedure.body given :=
  ⟨List.suffix_refl given, false, false, progresses_body procedure, nofun, nofun⟩

/-- Once a procedure succeeds, it has taken a token, unless it may do without. -/
theorem takes {value : α} (underway : Underway procedure given (.yield value) rest) :
    rest <:+ given ∧ (procedure.mayTakeNone = true ∨ rest.length < given.length) := by
  obtain ⟨suffix, taken, _, progresses, shorter, _⟩ := underway
  refine ⟨suffix, ?_⟩
  rcases progresses with isTaken | mayNone
  · exact .inr (shorter isTaken)
  · exact .inl mayNone

theorem look {next : Option Token → Script α}
    (underway : Underway procedure given (.look next) tokens) :
    Underway procedure given (next tokens.head?) tokens := by
  obtain ⟨suffix, taken, _, progresses, shorter, _⟩ := underway
  refine ⟨suffix, taken, _, progresses _, shorter, fun isSome => ?_⟩
  rintro rfl
  cases isSome

theorem behindToken {token : Token} (suffix : token :: rest <:+ given)
    (progresses : later.Progresses procedure true false) : Underway procedure given later rest :=
  ⟨(List.suffix_cons token rest).trans suffix, true, false, progresses,
    fun _ => Nat.lt_of_lt_of_le (Nat.lt_succ_self _) suffix.length_le, nofun⟩

theorem advance {next : Token → Script α} {token : Token}
    (underway : Underway procedure given (.advance next) (token :: rest)) :
    Underway procedure given (next token) rest := by
  obtain ⟨suffix, _, _, progresses, _⟩ := underway
  exact behindToken suffix (progresses.2 token)

theorem request {expected : Expectation} {next : Token → Script α} {token : Token}
    (underway : Underway procedure given (.request expected next) (token :: rest)) :
    Underway procedure given (next token) rest := by
  obtain ⟨suffix, _, _, progresses, _⟩ := underway
  exact behindToken suffix (progresses token)

/-- What an entered procedure has taken counts for the one that enters it. -/
theorem enter {inner : Procedure} {next : inner.Result → Script α} {value : inner.Result}
    (underway : Underway procedure given (.enter inner next) tokens)
    (entered : Underway inner tokens (.yield value) rest) :
    Underway procedure given (next value) rest := by
  obtain ⟨suffix, taken, _, ⟨_, progresses⟩, shorter, _⟩ := underway
  obtain ⟨innerSuffix, innerTakes⟩ := entered.takes
  refine ⟨innerSuffix.trans suffix, _, false, progresses value, fun isTaken => ?_, nofun⟩
  rcases Bool.or_eq_true_iff.1 isTaken with before | takesOne
  · exact Nat.lt_of_le_of_lt innerSuffix.length_le (shorter before)
  · rcases innerTakes with mayNone | innerShorter
    · rw [mayNone] at takesOne
      cases takesOne
    · exact Nat.lt_of_lt_of_le innerShorter suffix.length_le

end Underway

/-- A run that succeeds keeps to the condition up to its end. -/
theorem Runs.underway {result : Outcome α} (runs : Runs behind script tokens result)
    (underway : Underway procedure given script tokens) :
    ∀ value rest, result = .ok (value, rest) → Underway procedure given (.yield value) rest := by
  induction runs generalizing procedure given with
  | yield =>
      rintro value rest ⟨⟩
      exact underway
  | fail => exact nofun
  | look _ inductionHypothesis => exact inductionHypothesis underway.look
  | advance _ inductionHypothesis => exact inductionHypothesis underway.advance
  | request _ inductionHypothesis => exact inductionHypothesis underway.request
  | requestBehind => exact nofun
  | enter _ _ firstYields laterYields =>
      exact laterYields (underway.enter (firstYields (.start _ _) _ _ rfl))
  | enterFails => exact nofun

/-- A procedure takes tokens from the front only; if it succeeds, it has taken one, unless it may do
without. -/
theorem Runs.takes {value : procedure.Result}
    (runs : Runs behind procedure.body tokens (.ok (value, rest))) :
    rest <:+ tokens ∧ (procedure.mayTakeNone = true ∨ rest.length < tokens.length) :=
  (runs.underway (.start procedure tokens) value rest rfl).takes

/-- What holds of a run part of the way holds after one more step. -/
theorem Underway.moves (underway : Underway procedure given script tokens)
    (moves : Moves behind (script, tokens) (later, rest)) :
    Underway procedure given later rest := by
  cases moves with
  | look => exact underway.look
  | advance => exact underway.advance
  | request => exact underway.request
  | enter first => exact underway.enter (first.underway (.start _ _) _ _ rfl)

theorem Underway.reaches {reached : Script α × List Token}
    (underway : Underway procedure given script tokens)
    (reaches : ReflTransGen (Moves behind) (script, tokens) reached) :
    Underway procedure given reached.1 reached.2 := by
  induction reaches with
  | refl => exact underway
  | tail _ last inductionHypothesis => exact inductionHypothesis.moves last

end Underway

/-! ## Runs end -/

/-- What is left to a procedure: tokens, and on the same tokens the rungs below its own. -/
def Procedure.weight (procedure : Procedure) (tokens : List Token) : Nat :=
  10 * tokens.length + procedure.rung

theorem Procedure.rung_lt (procedure : Procedure) : procedure.rung < 10 := by
  cases procedure <;> simp [rung]

/-- A procedure that is about to be entered has less left to it than the one that enters it. -/
theorem Underway.weight_lt {procedure inner : Procedure} {given tokens : List Token}
    {next : inner.Result → Script α}
    (underway : Underway procedure given (.enter inner next) tokens) :
    inner.weight tokens < procedure.weight given := by
  obtain ⟨suffix, taken, _, ⟨reason, _⟩, shorter, _⟩ := underway
  have length := suffix.length_le
  have bound := inner.rung_lt
  unfold Procedure.weight
  rcases reason with isTaken | lower
  · have := shorter isTaken
    omega
  · omega

/-- A script runs to its end if all procedures do that have less left to them than its own. -/
theorem exists_run {procedure : Procedure} {given : List Token}
    (below : ∀ (inner : Procedure) (rest : List Token),
      inner.weight rest < procedure.weight given →
        ∃ result, Runs behind inner.body rest result)
    {script : Script α} {tokens : List Token} (underway : Underway procedure given script tokens) :
    ∃ result, Runs behind script tokens result := by
  induction script generalizing tokens with
  | yield value => exact ⟨_, .yield⟩
  | fail error => exact ⟨_, .fail⟩
  | look next inductionHypothesis =>
      obtain ⟨result, runs⟩ := inductionHypothesis tokens.head? underway.look
      exact ⟨result, .look runs⟩
  | advance next inductionHypothesis =>
      obtain ⟨_, _, progresses, _, coming⟩ := underway.2
      cases tokens with
      | nil => exact absurd rfl (coming progresses.1)
      | cons token rest =>
          obtain ⟨result, runs⟩ := inductionHypothesis token underway.advance
          exact ⟨result, .advance runs⟩
  | request expected next inductionHypothesis =>
      cases tokens with
      | nil => exact ⟨_, .requestBehind⟩
      | cons token rest =>
          obtain ⟨result, runs⟩ := inductionHypothesis token underway.request
          exact ⟨result, .request runs⟩
  | enter inner next inductionHypothesis =>
      obtain ⟨entered, first⟩ := below inner tokens underway.weight_lt
      cases entered with
      | error error => exact ⟨_, .enterFails first⟩
      | ok yielded =>
          have entered := first.underway (.start inner tokens) _ _ rfl
          obtain ⟨result, runs⟩ := inductionHypothesis yielded.1 (underway.enter entered)
          exact ⟨result, .enter first runs⟩

/-- Every procedure runs to its end, on every list of tokens, with what its reader yields. -/
theorem runs_read (behind : Span) (procedure : Procedure) (tokens : List Token) :
    Runs behind procedure.body tokens (procedure.read behind tokens) := by
  have below : ∀ (inner : Procedure) (rest : List Token),
      inner.weight rest < procedure.weight tokens → ∃ result, Runs behind inner.body rest result :=
    fun inner rest _ => ⟨_, runs_read behind inner rest⟩
  obtain ⟨result, runs⟩ := exists_run below (Underway.start procedure tokens)
  rw [runs.read_eq]
  exact runs
termination_by procedure.weight tokens

theorem runs_iff {procedure : Procedure} {tokens : List Token}
    {result : Outcome procedure.Result} :
    Runs behind procedure.body tokens result ↔ procedure.read behind tokens = result := by
  constructor
  · exact Runs.read_eq
  · rintro rfl
    exact runs_read behind procedure tokens

/-! ## Progress of procedures and of loops -/

theorem exists_taken {tokens rest : List Token} (suffix : rest <:+ tokens) :
    ∃ taken, tokens = taken ++ rest ∧ (rest.length < tokens.length → taken ≠ []) := by
  obtain ⟨taken, rfl⟩ := suffix
  refine ⟨taken, rfl, ?_⟩
  rintro shorter rfl
  exact Nat.lt_irrefl _ shorter

/-- A procedure that succeeds has taken tokens from the front, and one at least unless it is a loop
that is over at once. -/
theorem exists_taken_of_read {procedure : Procedure} {tokens rest : List Token}
    {value : procedure.Result} (yields : procedure.read behind tokens = .ok (value, rest)) :
    ∃ taken, tokens = taken ++ rest ∧ (procedure.mayTakeNone = false → taken ≠ []) := by
  obtain ⟨suffix, takes⟩ := (runs_iff.2 yields).takes
  obtain ⟨taken, split, nonempty⟩ := exists_taken suffix
  refine ⟨taken, split, fun takesOne => ?_⟩
  rcases takes with mayNone | shorter
  · rw [takesOne] at mayNone
    cases mayNone
  · exact nonempty shorter

/-- The rung of all rounds of a loop. -/
def Loop.rung : Loop → Nat
  | .statements _ => 8
  | .entries | .calls => 1
  | _ => 0

theorem Procedure.rung_of_loop? {procedure : Procedure} {loop : Loop}
    (isRound : procedure.loop? = some loop) : procedure.rung = loop.rung := by
  cases procedure <;> cases isRound <;> rfl

namespace Enters

variable {outer inner : Procedure × List Token}

theorem underway (enters : Enters behind outer inner) :
    ∃ next, Underway outer.1 outer.2 (.enter inner.1 next : Script outer.1.Result) inner.2 := by
  obtain ⟨next, reaches⟩ := enters
  exact ⟨next, (Underway.start outer.1 outer.2).reaches reaches⟩

/-- What is left to a procedure falls with every procedure that it enters. -/
theorem weight_lt (enters : Enters behind outer inner) :
    inner.1.weight inner.2 < outer.1.weight outer.2 := by
  obtain ⟨next, underway⟩ := enters.underway
  exact underway.weight_lt

/-- A procedure is entered on the last of the tokens, and another round of a loop on fewer. -/
theorem exists_taken_of_round (enters : Enters behind outer inner) :
    ∃ taken, outer.2 = taken ++ inner.2 ∧ ∀ loop, outer.1.loop? = some loop →
      inner.1.loop? = some loop → taken ≠ [] := by
  obtain ⟨next, suffix, _⟩ := enters.underway
  obtain ⟨taken, split, nonempty⟩ := exists_taken suffix
  refine ⟨taken, split, fun loop isRound isNext => nonempty ?_⟩
  have lower := enters.weight_lt
  -- All rounds stand on one rung, so that only tokens can have become fewer.
  unfold Procedure.weight at lower
  rw [Procedure.rung_of_loop? isRound, Procedure.rung_of_loop? isNext] at lower
  omega

end Enters

end NanoScript.Reading
