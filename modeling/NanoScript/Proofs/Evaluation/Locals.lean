import NanoScript.Proofs.Evaluation.Constants
import NanoScript.Proofs.Phrase.FreeNames
import NanoScript.Proofs.Phrase.Shape

/-!
Contract: where an evaluation declares names.

Owns:
- the names that a phrase declares in the scope it is evaluated in, function bodies left aside;
- the discipline of evaluations that declare only these in the scope they start in, and everything
  else in scopes made since;
- the growth of a store: scopes stay where they are and keep their names, and gain only names that
  they may gain;
- the theorem that the locals of calls stay out of every scope that was there before.
-/

namespace NanoScript

open Relation

/-! ## Declarations of a phrase -/

/-- One phrase lies in another outside every function body in it. -/
inductive Phrase.LiesIn (part : Phrase) : Phrase → Prop
  | here : LiesIn part part
  | inPart {child whole : Phrase} (member : child ∈ whole.parts) (lies : LiesIn part child) :
      LiesIn part whole

theorem Phrase.LiesIn.trans {part middle whole : Phrase} (first : part.LiesIn middle)
    (second : middle.LiesIn whole) : part.LiesIn whole := by
  induction second with
  | here => exact first
  | inPart member _ inductionHypothesis => exact .inPart member inductionHypothesis

/-- A declaration of the name, of a variable or of a function, lies in the phrase outside every
function body. -/
def Phrase.Declares (phrase : Phrase) (name : String) : Prop :=
  ∃ declaration : Phrase, declaration.LiesIn phrase ∧ name ∈ declaration.declaredNames

theorem Phrase.IsExpression.not_declares {phrase : Phrase} (isExpression : phrase.IsExpression)
    (name : String) : ¬ phrase.Declares name := by
  rintro ⟨declaration, lies, declared⟩
  induction lies with
  | here => cases isExpression <;> cases declared
  | inPart member _ inductionHypothesis =>
      exact inductionHypothesis (isExpression.of_mem_parts member)

/-- The evaluations of a phrase in a scope: phrases of older scopes are the parts of this one, and
function bodies see younger scopes. -/
def Discipline.ofPlace (state : State) (scope : ScopeId) (phrase : Phrase) : Discipline where
  base := state.size
  scopes _ := True
  functions _ _ := True
  fits _ place part := (place = scope ∧ part.LiesIn phrase) ∨ state.size ≤ place.index
  fresh _ := trivial
  functions_mono _ _ := trivial
  fits_mono _ within := within
  closure _ := trivial
  scope _ := trivial
  part within member :=
    within.imp_left fun ⟨same, lies⟩ =>
      ⟨same, (Phrase.LiesIn.inPart (Phrase.mem_parts_of_mem_evaluated member) .here).trans lies⟩
  declared _ _ := trivial
  body enough _ _ := .inr enough

theorem Discipline.ofPlace_admits (state : State) (scope : ScopeId) (phrase : Phrase) :
    (Discipline.ofPlace state scope phrase).Admits state :=
  ⟨Nat.le_refl _, fun _ _ _ _ => trivial, fun _ _ _ _ _ _ _ _ => trivial⟩

/-! ## Stores that grow -/

/-- From one store to another, scopes stay where they are and their names stay declared, and the
names they gain are allowed.  What is a constant changes only for names that are gained. -/
structure Store.GrowsBy (gains : ScopeId → String → Prop) (before after : Store) : Prop where
  has : ∀ {id}, before.Has id → after.Has id
  parent : ∀ {id}, before.Has id → after.parent? id = before.parent? id
  depth : ∀ {id}, before.Has id → after.depth id = before.depth id
  kept : ∀ {id name}, before.declares id name = true → after.declares id name = true
  gained : ∀ {id name}, before.Has id → after.declares id name = true →
    before.declares id name = true ∨ gains id name
  constants : ∀ {id name}, before.Has id → before.declares id name = true ∨ ¬ gains id name →
    after.isConstant id name = before.isConstant id name

namespace Store.GrowsBy

variable {gains : ScopeId → String → Prop}

theorem refl (store : Store) : store.GrowsBy gains store :=
  ⟨id, fun _ => rfl, fun _ => rfl, id, fun _ => .inl, fun _ _ => rfl⟩

theorem trans {first second third : Store} (early : first.GrowsBy gains second)
    (late : second.GrowsBy gains third) : first.GrowsBy gains third where
  has present := late.has (early.has present)
  parent present := (late.parent (early.has present)).trans (early.parent present)
  depth present := (late.depth (early.has present)).trans (early.depth present)
  kept declared := late.kept (early.kept declared)
  gained present declared := by
    rcases late.gained (early.has present) declared with before | allowed
    · exact early.gained present before
    · exact .inr allowed
  constants present settled :=
    (late.constants (early.has present) (settled.imp_left early.kept)).trans
      (early.constants present settled)

/-- A scope that may gain nothing declares the same names, and has the same constants. -/
theorem unchanged {before after : Store} (grows : before.GrowsBy gains after) {id : ScopeId}
    (present : before.Has id) (nothing : ∀ name, ¬ gains id name) (name : String) :
    after.declares id name = before.declares id name ∧
      after.isConstant id name = before.isConstant id name := by
  refine ⟨?_, grows.constants present (.inr (nothing name))⟩
  cases declared : before.declares id name with
  | true => exact grows.kept declared
  | false =>
      refine Bool.eq_false_iff.2 fun now => ?_
      rcases grows.gained present now with already | allowed
      · rw [declared] at already
        cases already
      · exact nothing name allowed

/-- A name may be bound where it may be declared, and to something as constant as before. -/
theorem bind {store : Store} {owner : ScopeId} {name : String} {binding : Binding}
    (sameConstant : store.declares owner name = true →
      binding.constant = store.isConstant owner name)
    (allowed : store.declares owner name = true ∨ gains owner name) :
    store.GrowsBy gains (store.bind owner name binding) := by
  refine ⟨has_bind.2, fun _ => parent?_bind .., fun _ => depth_bind .., declares_bind_of_declares,
    ?_, ?_⟩
  · intro id key present declared
    by_cases here : id = owner ∧ key = name
    · obtain ⟨rfl, rfl⟩ := here
      exact allowed
    · rw [declares, binding?_bind_of_elsewhere here] at declared
      exact .inl declared
  · intro id key present settled
    by_cases here : id = owner ∧ key = name
    · obtain ⟨rfl, rfl⟩ := here
      have declared := settled.elim (fun already => already) fun never => allowed.resolve_right never
      rw [isConstant_bind present, sameConstant declared]
      simp
    · exact isConstant_bind_of_elsewhere here

theorem addEnclosed (store : Store) (outer : ScopeId) :
    store.GrowsBy gains (store.addEnclosed outer).2 := by
  have same : ∀ {id}, store.Has id → (store.addEnclosed outer).2.scope? id = store.scope? id :=
    fun present => scope?_addEnclosed_of_has present outer
  refine ⟨fun present => has_addEnclosed.2 (.inl present), ?_, ?_, ?_, ?_, ?_⟩
  · intro id present
    rw [parent?, same present, ← parent?]
  · intro id present
    rw [Store.depth, same present, ← Store.depth]
  · intro id name declared
    obtain ⟨binding, bound⟩ := Option.isSome_iff_exists.1 declared
    rw [declares, binding?_addEnclosed bound]
    rfl
  · intro id name present declared
    rw [declares, binding?, same present] at declared
    exact .inl declared
  · intro id name present _
    rw [isConstant, same present, ← isConstant]

end Store.GrowsBy

/-! ## Evaluation -/

/-- The names that the scopes of a discipline may gain: those of declarations that fit there, and
any in scopes made since. -/
def Discipline.Gains (discipline : Discipline) (id : ScopeId) (name : String) : Prop :=
  (∃ size declaration, discipline.fits size id declaration ∧ name ∈ declaration.declaredNames) ∨
    discipline.base ≤ id.index

theorem Discipline.Change.growsBy {discipline : Discipline} {before after : State}
    (change : discipline.Change before after) :
    before.store.GrowsBy discipline.Gains after.store := by
  have anew : ∀ {owner name binding}, before.store.declares owner name = false →
      discipline.Gains owner name →
        before.store.GrowsBy discipline.Gains (before.store.bind owner name binding) := by
    intro owner name binding undeclared allowed
    refine .bind (fun declared => ?_) (.inr allowed)
    rw [undeclared] at declared
    cases declared
  cases change with
  | print line => exact .refl _
  | declareVariable fits undeclared within =>
      exact anew undeclared (.inl ⟨_, _, fits, List.mem_singleton.2 rfl⟩)
  | declareFunction text fits undeclared =>
      exact anew undeclared (.inl ⟨_, _, fits, List.mem_singleton.2 rfl⟩)
  | bindParameter fresh undeclared within => exact anew undeclared (.inr fresh)
  | assign fits named found within =>
      obtain ⟨_, older, boundOwner, notConstant⟩ := Store.assignable_eq_ok found
      refine .bind (fun _ => ?_) (.inl (Option.isSome_iff_exists.2 ⟨older, boundOwner⟩))
      exact notConstant.symm.trans (Store.constant_of_binding? boundOwner)
  | enclose within => exact .addEnclosed _ _

theorem Discipline.growsBy_of_changes {discipline : Discipline} {before after : State}
    (changes : ReflTransGen discipline.Change before after) :
    before.store.GrowsBy discipline.Gains after.store := by
  induction changes with
  | refl => exact .refl _
  | tail _ change inductionHypothesis => exact inductionHypothesis.trans change.growsBy

/-- Whatever a phrase evaluates to, and wherever it fails: every scope that was there keeps its
place and its names; every such scope but the one the phrase is evaluated in gains no name and no
constant; and that one gains only names that the phrase declares outside function bodies.  An
expression declares nothing in any of them, whatever it calls. -/
theorem Phrase.evaluate_keeps_locals_out (depth text : Nat) (phrase : Phrase) (scope : ScopeId)
    (state : State) :
    let before := state.store
    let after := ((phrase.evaluate ((Invoker.upTo Host.standard depth).within text) scope).outcome
      state).2.store
    (∀ id, before.Has id →
        after.Has id ∧ after.parent? id = before.parent? id ∧ after.depth id = before.depth id ∧
          ∀ name, before.declares id name = true →
            after.declares id name = true ∧
              after.isConstant id name = before.isConstant id name) ∧
      (∀ id, before.Has id → id ≠ scope → ∀ name,
        after.declares id name = before.declares id name ∧
          after.isConstant id name = before.isConstant id name) ∧
      (before.Has scope → ∀ name, after.declares scope name = true →
        before.declares scope name = true ∨ phrase.Declares name) ∧
      (phrase.IsExpression → ∀ id, before.Has id → ∀ name,
        after.declares id name = before.declares id name ∧
          after.isConstant id name = before.isConstant id name) := by
  intro before after
  have fits : (Discipline.ofPlace state scope phrase).fits state.size scope phrase :=
    .inl ⟨rfl, .here⟩
  have grows := Discipline.growsBy_of_changes (Discipline.evaluate_changes depth text
    (Discipline.ofPlace_admits state scope phrase) fits)
  have gains : ∀ id, before.Has id → ∀ name,
      (Discipline.ofPlace state scope phrase).Gains id name →
        id = scope ∧ phrase.Declares name := by
    rintro id present name (⟨_, declaration, ⟨rfl, lies⟩ | made, declared⟩ | made)
    · exact ⟨rfl, declaration, lies, declared⟩
    · exact absurd present (Nat.not_lt.2 made)
    · exact absurd present (Nat.not_lt.2 made)
  refine ⟨?_, ?_, ?_, ?_⟩
  · intro id present
    exact ⟨grows.has present, grows.parent present, grows.depth present,
      fun name declared => ⟨grows.kept declared, grows.constants present (.inl declared)⟩⟩
  · intro id present other
    exact grows.unchanged present fun name gained => other (gains id present name gained).1
  · intro present name declared
    exact (grows.gained present declared).imp_right fun gained => (gains _ present name gained).2
  · intro isExpression id present
    exact grows.unchanged present fun name gained =>
      isExpression.not_declares name (gains id present name gained).2

end NanoScript
