import NanoScript.Proofs.Evaluation.Discipline

/-!
Contract: names keep what they stand for unless an assignment says otherwise.

Owns:
- the discipline of evaluations whose phrases all come from a given stock;
- what a change may do to a name that is bound already;
- the theorem that an evaluation never changes a constant, and changes another name only if an
  assignment to that name occurs in the evaluated phrase or in a function of the state.
-/

namespace NanoScript

open Relation

/-! ## A stock of phrases -/

/-- The evaluations that see every scope and evaluate phrases of a stock, which contains the parts
and the bodies of its phrases. -/
def Discipline.ofStock (stock : Phrase → Prop)
    (parts : ∀ {whole phrase}, stock whole → phrase ∈ whole.parts → stock phrase)
    (bodies : ∀ {whole phrase}, stock whole → phrase ∈ whole.body → stock phrase) :
    Discipline where
  base := 0
  scopes _ := True
  functions _ function := ∀ phrase ∈ function.body, stock phrase
  fits _ _ phrase := stock phrase
  fresh _ := trivial
  functions_mono _ within := within
  fits_mono _ within := within
  closure _ := trivial
  scope _ := trivial
  part within member := parts within (Phrase.mem_parts_of_mem_evaluated member)
  declared _ within _ member := bodies within member
  body _ within member := within _ member

/-- What occurs in a phrase or in the body of a function that a store holds. -/
def Store.Stock (store : Store) (phrase part : Phrase) : Prop :=
  part.OccursIn phrase ∨
    ∃ function, store.Holds function ∧ ∃ statement ∈ function.body, part.OccursIn statement

theorem Store.Stock.inside {store : Store} {phrase whole part : Phrase}
    (stock : store.Stock phrase whole) (occurs : part.OccursIn whole) :
    store.Stock phrase part := by
  rcases stock with inPhrase | ⟨function, held, statement, member, inStatement⟩
  · exact .inl (occurs.trans inPhrase)
  · exact .inr ⟨function, held, statement, member, occurs.trans inStatement⟩

/-- The evaluations of a phrase in a state. -/
def Discipline.ofEvaluation (state : State) (phrase : Phrase) : Discipline :=
  .ofStock (state.store.Stock phrase)
    (fun stock member => stock.inside (.of_parts member))
    (fun stock member => stock.inside (.of_body member))

theorem Discipline.ofEvaluation_admits (state : State) (phrase : Phrase) :
    (Discipline.ofEvaluation state phrase).Admits state := by
  refine ⟨Nat.zero_le _, fun _ _ _ _ => trivial, ?_⟩
  intro id scope _ present entry member function occurs statement inBody
  exact .inr ⟨function, ⟨id, scope, present, entry, member, occurs⟩, statement, inBody, .here⟩

/-! ## Bound names -/

/-- Binding a name that is not declared leaves every bound name as it was. -/
theorem Store.binding?_bind_of_undeclared {store : Store} {owner id : ScopeId}
    {name key : String} {new binding : Binding} (undeclared : store.declares owner name = false)
    (bound : store.binding? id key = some binding) :
    (store.bind owner name new).binding? id key = some binding := by
  by_cases present : store.Has owner
  · rw [Store.binding?_bind present, if_neg ?_]
    · exact bound
    · rintro ⟨rfl, rfl⟩
      rw [Store.declares, bound] at undeclared
      cases undeclared
  · have absent : id ≠ owner := by
      intro same
      rw [same] at bound
      exact present (Store.has_of_binding? bound)
    rw [Store.binding?, Store.scope?_bind, if_neg absent]
    exact bound

theorem Store.binding?_addEnclosed {store : Store} {parent id : ScopeId} {key : String}
    {binding : Binding} (bound : store.binding? id key = some binding) :
    (store.addEnclosed parent).2.binding? id key = some binding := by
  rw [Store.binding?, Store.scope?_addEnclosed_of_has (Store.has_of_binding? bound)]
  exact bound

/-- An assignment to a name that is an identifier. -/
def Phrase.AssignsTo (name : String) : Phrase → Prop
  | .assignment target _ _ => target.name? = some name
  | _ => False

/-- From one state to another, bound names stay bound and as constant as they were, and of the
others only those that may be assigned to change. -/
def State.Keeps (assigned : String → Prop) (before after : State) : Prop :=
  ∀ id name binding, before.store.binding? id name = some binding →
    ∃ later, after.store.binding? id name = some later ∧ later.constant = binding.constant ∧
      (later ≠ binding → binding.constant = false ∧ assigned name)

theorem State.Keeps.refl (assigned : String → Prop) (state : State) :
    state.Keeps assigned state :=
  fun _ _ binding bound => ⟨binding, bound, rfl, fun differs => absurd rfl differs⟩

theorem State.Keeps.trans {assigned : String → Prop} {first second third : State}
    (early : first.Keeps assigned second) (late : second.Keeps assigned third) :
    first.Keeps assigned third := by
  intro id name binding bound
  obtain ⟨middle, boundMiddle, sameMiddle, changedMiddle⟩ := early id name binding bound
  obtain ⟨last, boundLast, sameLast, changedLast⟩ := late id name middle boundMiddle
  refine ⟨last, boundLast, sameLast.trans sameMiddle, fun differs => ?_⟩
  by_cases unchanged : last = middle
  · exact changedMiddle (unchanged ▸ differs)
  · obtain ⟨notConstant, mayChange⟩ := changedLast unchanged
    exact ⟨sameMiddle.symm.trans notConstant, mayChange⟩

/-- A change within a discipline changes a bound name only by an assignment that fits. -/
theorem Discipline.Change.keeps {discipline : Discipline} {before after : State}
    (change : discipline.Change before after) :
    before.Keeps
      (fun name => ∃ size scope phrase, discipline.fits size scope phrase ∧
        phrase.AssignsTo name) after := by
  intro id name binding bound
  have unchanged : ∀ later : State, later.store.binding? id name = some binding →
      ∃ last, later.store.binding? id name = some last ∧ last.constant = binding.constant ∧
        (last ≠ binding → binding.constant = false ∧
          ∃ size scope phrase, discipline.fits size scope phrase ∧ phrase.AssignsTo name) :=
    fun _ same => ⟨binding, same, rfl, fun differs => absurd rfl differs⟩
  cases change with
  | print line => exact unchanged _ bound
  | declareVariable fits undeclared within =>
      exact unchanged _ (Store.binding?_bind_of_undeclared undeclared bound)
  | declareFunction text fits undeclared =>
      exact unchanged _ (Store.binding?_bind_of_undeclared undeclared bound)
  | bindParameter fresh undeclared within =>
      exact unchanged _ (Store.binding?_bind_of_undeclared undeclared bound)
  | @assign scope owner assigned target written span value fits named found within =>
      obtain ⟨_, older, boundOwner, notConstant⟩ := Store.assignable_eq_ok found
      have present := Store.has_of_binding? boundOwner
      by_cases same : id = owner ∧ name = assigned
      · obtain ⟨rfl, rfl⟩ := same
        cases Option.some.inj (bound.symm.trans boundOwner)
        refine ⟨⟨value, false⟩, ?_, notConstant.symm, fun _ => ?_⟩
        · refine Store.binding?_bind_self present name fun marked => ?_
          rw [← Store.constant_of_binding? bound, notConstant] at marked
          cases marked
        · exact ⟨notConstant, _, _, _, fits, named⟩
      · refine unchanged _ ?_
        change (before.store.bind owner assigned _).binding? id name = _
        rw [Store.binding?_bind present, if_neg same]
        exact bound
  | enclose within => exact unchanged _ (Store.binding?_addEnclosed bound)

theorem Discipline.keeps_of_changes {discipline : Discipline} {before after : State}
    (changes : ReflTransGen discipline.Change before after) :
    before.Keeps
      (fun name => ∃ size scope phrase, discipline.fits size scope phrase ∧
        phrase.AssignsTo name) after := by
  induction changes with
  | refl => exact .refl _ _
  | tail _ change inductionHypothesis => exact inductionHypothesis.trans change.keeps

/-! ## Evaluation -/

/-- Whatever a phrase evaluates to, and wherever it fails: constants are what they were, and another
name stands for something else only if an assignment to it occurs in the phrase or in the body of a
function that was held. -/
theorem Phrase.evaluate_keeps_constants (depth text : Nat) (phrase : Phrase) (scope : ScopeId)
    (state : State) (id : ScopeId) (name : String) (binding : Binding)
    (bound : state.store.binding? id name = some binding) :
    ∃ later,
      ((phrase.evaluate ((Invoker.upTo Host.standard depth).within text) scope).outcome
          state).2.store.binding? id name = some later ∧
        (binding.constant = true → later = binding) ∧
        (later.value ≠ binding.value →
          binding.constant = false ∧ later.constant = false ∧
            ∃ assignment, state.store.Stock phrase assignment ∧ assignment.AssignsTo name) := by
  have fits : (Discipline.ofEvaluation state phrase).fits state.size scope phrase := .inl .here
  have admits := Discipline.ofEvaluation_admits state phrase
  have changes := Discipline.evaluate_changes depth text admits fits
  obtain ⟨later, boundLater, sameConstant, changed⟩ :=
    Discipline.keeps_of_changes changes id name binding bound
  refine ⟨later, boundLater, ?_, ?_⟩
  · intro constant
    refine Classical.byContradiction fun differs => ?_
    rw [(changed differs).1] at constant
    cases constant
  · intro differs
    obtain ⟨notConstant, _, _, assignment, stock, assigns⟩ :=
      changed fun same => differs (congrArg Binding.value same)
    exact ⟨notConstant, sameConstant.trans notConstant, assignment, stock, assigns⟩

/-- The phrase `true = null`. -/
def Phrase.nullForTrue : Phrase :=
  .assignment (.identifier "true" ⟨0, 4⟩) (.identifier "null" ⟨7, 11⟩) ⟨0, 11⟩

/-- In the global scope, `true` stays what it is although it is assigned to. -/
theorem Phrase.nullForTrue_keeps_true :
    State.initial.2.store.binding? State.initial.1 "true" = some ⟨.boolean true, true⟩ ∧
      ∃ later,
        ((Phrase.nullForTrue.evaluate ((Invoker.upTo Host.standard 1).within 0)
            State.initial.1).outcome State.initial.2).2.store.binding? State.initial.1 "true" =
          some later ∧ later = ⟨.boolean true, true⟩ := by
  have bound : State.initial.2.store.binding? State.initial.1 "true" =
      some ⟨.boolean true, true⟩ := rfl
  obtain ⟨later, found, constant, _⟩ :=
    Phrase.evaluate_keeps_constants 1 0 Phrase.nullForTrue State.initial.1 State.initial.2
      State.initial.1 "true" ⟨.boolean true, true⟩ bound
  exact ⟨bound, later, found, constant rfl⟩

end NanoScript
