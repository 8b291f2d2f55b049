import NanoScript.Proofs.Evaluation.Primitive
import NanoScript.Proofs.Phrase.Relocation
import NanoScript.Proofs.Scope.Chain
import NanoScript.Value.Text

/-!
Contract: two evaluations that run alike.

Owns:
- matchings: which phrases and places of one text correspond to which of another;
- likenesses: matchings for two runs, and which scopes of one run correspond to which of the other;
- the values, scopes, states and failures that correspond under a likeness;
- what the operations on scopes do to corresponding states.

A likeness names the scopes that corresponded at the start.  Scopes that are made later correspond
in the order in which they are made, so that both runs must make them in step.
-/

namespace NanoScript

/-! ## Entries of one meaning -/

/-- Entries that give one property the same value: a key alone may stand for the key with the
variable of that name. -/
inductive Entry.Alike (phrases : Phrase → Phrase → Prop) (spans : Span → Span → Prop) :
    Entry → Entry → Prop
  | shorthand {key : String} {left right : Span} (places : spans left right) :
      Alike phrases spans (.shorthand key left) (.shorthand key right)
  | keyed {key : String} {leftValue rightValue : Phrase} {left right : Span}
      (values : phrases leftValue rightValue) :
      Alike phrases spans (.keyed key leftValue left) (.keyed key rightValue right)
  | expanded {key : String} {left right whole : Span} (places : spans left right) :
      Alike phrases spans (.shorthand key left) (.keyed key (.identifier key right) whole)

theorem Entry.Alike.key {phrases : Phrase → Phrase → Prop} {spans : Span → Span → Prop}
    {left right : Entry} (alike : Entry.Alike phrases spans left right) :
    left.key = right.key := by
  cases alike <;> rfl

theorem Entry.Alike.mono {phrases others : Phrase → Phrase → Prop}
    {spans places : Span → Span → Prop} {left right : Entry}
    (alike : Entry.Alike phrases spans left right)
    (onPhrases : ∀ left right, phrases left right → others left right)
    (onSpans : ∀ left right, spans left right → places left right) :
    Entry.Alike others places left right := by
  cases alike with
  | shorthand same => exact .shorthand (onSpans _ _ same)
  | keyed values => exact .keyed (onPhrases _ _ values)
  | expanded same => exact .expanded (onSpans _ _ same)

theorem Entry.Layer.alike {phrases : Phrase → Phrase → Prop} {spans : Span → Span → Prop}
    {left right : Entry} (layer : Entry.Layer phrases spans left right) :
    Entry.Alike phrases spans left right := by
  cases layer with
  | shorthand places => exact .shorthand places
  | keyed values _ => exact .keyed values

/-! ## Matchings -/

/-- Which phrases and places of one text correspond to which of another.  Corresponding phrases are
of one form, and failures may be reported at corresponding places. -/
structure Matching where
  phrases : Nat → Nat → Phrase → Phrase → Prop
  spans : Nat → Nat → Span → Span → Prop
  places : Span → Span → Prop
  layer : ∀ {leftText rightText left right}, phrases leftText rightText left right →
    Phrase.Layer (Entry.Alike (phrases leftText rightText) (spans leftText rightText))
      (phrases leftText rightText) (spans leftText rightText) left right
  reported : ∀ {leftText rightText left right}, spans leftText rightText left right →
    places left right

/-- Phrases and places of one and the same text correspond, in the same way in every text. -/
def Matching.inOneText (phrases : Phrase → Phrase → Prop) (spans : Span → Span → Prop)
    (layer : ∀ {left right}, phrases left right →
      Phrase.Layer (Entry.Alike phrases spans) phrases spans left right) : Matching where
  phrases leftText rightText left right := leftText = rightText ∧ phrases left right
  spans leftText rightText left right := leftText = rightText ∧ spans left right
  places := spans
  layer both :=
    (layer both.2).mono
      (fun _ _ entries => entries.mono (fun _ _ same => ⟨both.1, same⟩)
        fun _ _ same => ⟨both.1, same⟩)
      (fun _ _ same => ⟨both.1, same⟩) fun _ _ same => ⟨both.1, same⟩
  reported both := both.2

/-! ## Likenesses -/

/-- A matching for two runs.  Of the scopes that were there at the start each corresponds to at most
one of the other run. -/
structure Likeness extends Matching where
  old : ScopeId → ScopeId → Prop
  leftSize : Nat
  rightSize : Nat
  leftOld : ∀ {left right}, old left right → left.index < leftSize
  rightOld : ∀ {left right}, old left right → right.index < rightSize
  oneToOne : ∀ {left right other another}, old left right → old other another →
    (left = other ↔ right = another)
  leftOutput : Array String
  rightOutput : Array String
  leftTexts : Nat
  rightTexts : Nat

namespace Likeness

variable (likeness : Likeness)

/-- Scopes that corresponded at the start, or that were made as so-manieth since. -/
def Scopes (left right : ScopeId) : Prop :=
  likeness.old left right ∨
    ∃ count, left = ⟨likeness.leftSize + count⟩ ∧ right = ⟨likeness.rightSize + count⟩

/-- Functions that differ only in corresponding bodies at corresponding places and in the scopes
they see. -/
structure Functions (left right : Function) : Prop where
  name : left.name = right.name
  parameters : left.parameters = right.parameters
  body : List.Forall₂ (likeness.phrases left.bodyId.text right.bodyId.text) left.body right.body
  place : likeness.spans left.bodyId.text right.bodyId.text left.bodyId.place right.bodyId.place
  closure : likeness.Scopes left.closure right.closure

mutual

/-- Values of one form that differ only in the functions in them, which correspond. -/
inductive Values : Value → Value → Prop
  | null : Values .null .null
  | boolean {value : Bool} : Values (.boolean value) (.boolean value)
  | number {value : Number} : Values (.number value) (.number value)
  | native {function : NativeFunction} : Values (.native function) (.native function)
  | function {left right : Function} (functions : likeness.Functions left right) :
      Values (.function left) (.function right)
  | object {left right : List (String × Value)} (properties : Properties left right) :
      Values (.object ⟨left⟩) (.object ⟨right⟩)

/-- Properties under the same keys whose values correspond. -/
inductive Properties : List (String × Value) → List (String × Value) → Prop
  | nil : Properties [] []
  | cons {key : String} {left right : Value} {leftRest rightRest : List (String × Value)}
      (values : Values left right) (rest : Properties leftRest rightRest) :
      Properties ((key, left) :: leftRest) ((key, right) :: rightRest)

end

/-- Bindings that are equally constant and bind corresponding values. -/
structure Bindings (left right : Binding) : Prop where
  value : likeness.Values left.value right.value
  constant : left.constant = right.constant

/-- Scopes at one depth, inside corresponding scopes, with corresponding values under their names
and the same constants. -/
structure Contents (left right : Scope) : Prop where
  parent : Option.Rel likeness.Scopes left.parent right.parent
  depth : left.depth = right.depth
  values : Table.Alike likeness.Values left.values right.values
  constants : left.constants = right.constants

/-- States in which as many scopes were made and the same lines printed since the start and no text
was read, and corresponding scopes have corresponding contents. -/
structure States (left right : State) : Prop where
  made : ∃ count, left.size = likeness.leftSize + count ∧ right.size = likeness.rightSize + count
  printed : ∃ lines, left.output = likeness.leftOutput ++ lines ∧
    right.output = likeness.rightOutput ++ lines
  counted : left.store.texts = likeness.leftTexts ∧ right.store.texts = likeness.rightTexts
  contents : ∀ leftId rightId, likeness.Scopes leftId rightId →
    Option.Rel likeness.Contents (left.store.scope? leftId) (right.store.scope? rightId)

/-- Faults of one kind at corresponding places. -/
inductive Faults : Fault → Fault → Prop
  | scope {error : ScopeError} {left right : Span} (places : likeness.places left right) :
      Faults (.scope error left) (.scope error right)
  | divisionByZero {left right : Span} (places : likeness.places left right) :
      Faults (.divisionByZero left) (.divisionByZero right)
  | invalidAssignmentTarget {left right : Span} (places : likeness.places left right) :
      Faults (.invalidAssignmentTarget left) (.invalidAssignmentTarget right)
  | arityMismatch {name : String} {expected found : Nat} {left right : Span}
      (places : likeness.places left right) :
      Faults (.arityMismatch name expected found left) (.arityMismatch name expected found right)
  | notAFunction {found : Value.Kind} {left right : Span} (places : likeness.places left right) :
      Faults (.notAFunction found left) (.notAFunction found right)
  | notAnObject {found : Value.Kind} {left right : Span} (places : likeness.places left right) :
      Faults (.notAnObject found left) (.notAnObject found right)
  | invalidPropertyKey {found : Fault.Key} {left right : Span}
      (places : likeness.places left right) :
      Faults (.invalidPropertyKey found left) (.invalidPropertyKey found right)
  | native {message : String} {left right : Span} (places : likeness.places left right) :
      Faults (.native message left) (.native message right)

/-- Failures for corresponding reasons. -/
inductive Stops : Stop → Stop → Prop
  | tooDeep : Stops .tooDeep .tooDeep
  | fault {left right : Fault} (faults : likeness.Faults left right) :
      Stops (.fault left) (.fault right)

variable {likeness}

/-! ## Scopes -/

theorem scopes_oneToOne {left right other another : ScopeId}
    (first : likeness.Scopes left right) (second : likeness.Scopes other another) :
    left = other ↔ right = another := by
  rcases first with firstOld | ⟨count, rfl, rfl⟩
  · rcases second with secondOld | ⟨_, rfl, rfl⟩
    · exact likeness.oneToOne firstOld secondOld
    · have leftBelow := likeness.leftOld firstOld
      have rightBelow := likeness.rightOld firstOld
      constructor
      · rintro rfl
        exact absurd leftBelow (by simp)
      · rintro rfl
        exact absurd rightBelow (by simp)
  · rcases second with secondOld | ⟨_, rfl, rfl⟩
    · have leftBelow := likeness.leftOld secondOld
      have rightBelow := likeness.rightOld secondOld
      constructor
      · rintro rfl
        exact absurd leftBelow (by simp)
      · rintro rfl
        exact absurd rightBelow (by simp)
    · simp

/-! ## Values -/

theorem properties_iff {left right : List (String × Value)} :
    likeness.Properties left right ↔
      List.Forall₂ (Table.EntriesAlike likeness.Values) left right := by
  constructor
  · intro properties
    induction left generalizing right with
    | nil =>
        cases properties
        exact .nil
    | cons head rest inductionHypothesis =>
        cases properties with
        | cons values others => exact .cons ⟨rfl, values⟩ (inductionHypothesis others)
  · intro entries
    induction entries with
    | nil => exact .nil
    | @cons leftHead rightHead _ _ heads _ inductionHypothesis =>
        obtain ⟨key, leftValue⟩ := leftHead
        obtain ⟨_, rightValue⟩ := rightHead
        obtain ⟨rfl, values⟩ := heads
        exact .cons values inductionHypothesis

/-- Objects correspond if their tables do. -/
theorem values_object {left right : Table Value} :
    likeness.Values (.object left) (.object right) ↔ Table.Alike likeness.Values left right := by
  constructor
  · intro values
    cases values with
    | object properties => exact properties_iff.1 properties
  · intro tables
    exact .object (properties_iff.2 tables)

mutual

/-- Corresponding values are displayed alike. -/
theorem Values.text {left right : Value} (values : likeness.Values left right) :
    left.text = right.text := by
  match left, right, values with
  | _, _, .null => rfl
  | _, _, .boolean => rfl
  | _, _, .number => rfl
  | _, _, .native => rfl
  | _, _, .function functions =>
      unfold Value.text
      rw [functions.name]
  | _, _, .object properties =>
      unfold Value.text
      rw [properties.texts]

theorem Properties.texts {left right : List (String × Value)}
    (properties : likeness.Properties left right) :
    Value.propertyTexts left = Value.propertyTexts right := by
  match left, right, properties with
  | _, _, .nil => rfl
  | _, _, .cons values rest =>
      unfold Value.propertyTexts
      rw [values.text, rest.texts]

end

theorem line_eq {left right : List Value} (values : List.Forall₂ likeness.Values left right) :
    Value.line left = Value.line right := by
  have texts : left.map Value.text = right.map Value.text := by
    induction values with
    | nil => rfl
    | cons heads _ inductionHypothesis =>
        rw [List.map_cons, List.map_cons, heads.text, inductionHypothesis]
  unfold Value.line
  rw [texts]

/-! ## Faults -/

theorem Faults.span {left right : Fault} (faults : likeness.Faults left right) :
    likeness.places left.span right.span := by
  cases faults <;> assumption

/-- Corresponding faults differ in their places alone. -/
theorem Faults.eq_relocated {left right : Fault} (faults : likeness.Faults left right)
    {place : Span → Span} (same : right.span = place left.span) :
    right = left.relocated place := by
  cases faults <;> exact congrArg _ same

theorem Faults.eq_of_span {left right : Fault} (faults : likeness.Faults left right)
    (same : right.span = left.span) : right = left := by
  have isSame : right = left.relocated id := faults.eq_relocated same
  exact isSame.trans left.relocated_id

/-! ## Finding names in corresponding states -/

section

variable {left right : State} {leftId rightId : ScopeId}

theorem States.parent? (states : likeness.States left right)
    (scopes : likeness.Scopes leftId rightId) :
    Option.Rel likeness.Scopes (left.store.parent? leftId) (right.store.parent? rightId) :=
  (states.contents leftId rightId scopes).bind fun same => same.parent

theorem States.depth (states : likeness.States left right)
    (scopes : likeness.Scopes leftId rightId) :
    left.store.depth leftId = right.store.depth rightId := by
  unfold Store.depth
  rw [(states.contents leftId rightId scopes).map_eq fun same => same.depth]

theorem States.binding? (states : likeness.States left right)
    (scopes : likeness.Scopes leftId rightId) (name : String) :
    Option.Rel likeness.Bindings (left.store.binding? leftId name)
      (right.store.binding? rightId name) :=
  (states.contents leftId rightId scopes).bind fun same =>
    (same.values.find? name).map fun values =>
      Bindings.mk values (congrArg (Table.contains · name) same.constants)

theorem States.declares (states : likeness.States left right)
    (scopes : likeness.Scopes leftId rightId) (name : String) :
    left.store.declares leftId name = right.store.declares rightId name :=
  (states.binding? scopes name).isSome_eq

theorem States.isConstant (states : likeness.States left right)
    (scopes : likeness.Scopes leftId rightId) (name : String) :
    left.store.isConstant leftId name = right.store.isConstant rightId name := by
  unfold Store.isConstant
  rw [(states.contents leftId rightId scopes).map_eq fun same =>
    congrArg (Table.contains · name) same.constants]

theorem States.chainWithin (states : likeness.States left right)
    (scopes : likeness.Scopes leftId rightId) (steps : Nat) :
    List.Forall₂ likeness.Scopes (left.store.chainWithin steps leftId)
      (right.store.chainWithin steps rightId) := by
  induction steps generalizing leftId rightId with
  | zero => exact .cons scopes .nil
  | succ steps inductionHypothesis =>
      have parents := states.parent? scopes
      unfold Store.chainWithin
      revert parents
      cases left.store.parent? leftId <;> cases right.store.parent? rightId <;> intro parents
      · exact .cons scopes .nil
      · cases parents
      · cases parents
      · cases parents with
        | some outer => exact .cons scopes (inductionHypothesis outer)

theorem States.chain (states : likeness.States left right)
    (scopes : likeness.Scopes leftId rightId) :
    List.Forall₂ likeness.Scopes (left.store.chain leftId) (right.store.chain rightId) := by
  unfold Store.chain
  rw [states.depth scopes]
  exact states.chainWithin scopes _

/-- A name stands for corresponding values along corresponding chains, or for nothing. -/
theorem States.lookup (states : likeness.States left right)
    (scopes : likeness.Scopes leftId rightId) (name : String) :
    (∃ leftValue rightValue, left.store.lookup leftId name = .ok leftValue ∧
      right.store.lookup rightId name = .ok rightValue ∧ likeness.Values leftValue rightValue) ∨
    ∃ error, left.store.lookup leftId name = .error error ∧
      right.store.lookup rightId name = .error error := by
  have found := (states.chain scopes).findSome? fun same => states.binding? same name
  unfold Store.lookup
  revert found
  cases (left.store.chain leftId).findSome? _ <;> cases (right.store.chain rightId).findSome? _ <;>
    intro found
  · exact .inr ⟨_, rfl, rfl⟩
  · cases found
  · cases found
  · cases found with
    | some same => exact .inl ⟨_, _, rfl, rfl, same.value⟩

/-- A name is assigned in corresponding scopes, or cannot be assigned for one reason. -/
theorem States.assignable (states : likeness.States left right)
    (scopes : likeness.Scopes leftId rightId) (name : String) :
    (∃ leftOwner rightOwner, left.store.assignable leftId name = .ok leftOwner ∧
      right.store.assignable rightId name = .ok rightOwner ∧
      likeness.Scopes leftOwner rightOwner) ∨
    ∃ error, left.store.assignable leftId name = .error error ∧
      right.store.assignable rightId name = .error error := by
  have found := (states.chain scopes).find? fun same => states.declares same name
  unfold Store.assignable Store.resolve
  revert found
  cases (left.store.chain leftId).find? _ <;> cases (right.store.chain rightId).find? _ <;>
    intro found
  · exact .inr ⟨_, rfl, rfl⟩
  · cases found
  · cases found
  · cases found with
    | some owners =>
        dsimp only
        rw [states.isConstant owners name]
        split
        · exact .inr ⟨_, rfl, rfl⟩
        · exact .inl ⟨_, _, rfl, rfl, owners⟩

/-! ## Changing corresponding states -/

theorem Contents.bind {left right : Scope} (contents : likeness.Contents left right)
    (name : String) {leftBinding rightBinding : Binding}
    (bindings : likeness.Bindings leftBinding rightBinding) :
    likeness.Contents (left.bind name leftBinding) (right.bind name rightBinding) := by
  refine ⟨contents.parent, contents.depth, contents.values.insert name bindings.value, ?_⟩
  unfold Scope.bind
  rw [bindings.constant, contents.constants]

theorem States.bind (states : likeness.States left right)
    (scopes : likeness.Scopes leftId rightId) (name : String) {leftBinding rightBinding : Binding}
    (bindings : likeness.Bindings leftBinding rightBinding) :
    likeness.States (left.bind leftId name leftBinding) (right.bind rightId name rightBinding) := by
  refine ⟨?_, states.printed, states.counted, ?_⟩
  · rw [State.size_bind, State.size_bind]
    exact states.made
  · intro leftOther rightOther others
    have contents := states.contents leftOther rightOther others
    have together := scopes_oneToOne others scopes
    change Option.Rel likeness.Contents
      ((left.store.bind leftId name leftBinding).scope? leftOther)
      ((right.store.bind rightId name rightBinding).scope? rightOther)
    rw [Store.scope?_bind, Store.scope?_bind]
    by_cases here : leftOther = leftId
    · rw [if_pos here, if_pos (together.1 here)]
      exact contents.map fun same => same.bind name bindings
    · rw [if_neg here, if_neg fun there => here (together.2 there)]
      exact contents

/-- The scopes that two runs make next correspond. -/
theorem States.next (states : likeness.States left right) :
    likeness.Scopes ⟨left.size⟩ ⟨right.size⟩ := by
  obtain ⟨count, leftMade, rightMade⟩ := states.made
  exact .inr ⟨count, congrArg ScopeId.mk leftMade, congrArg ScopeId.mk rightMade⟩

theorem States.addEnclosed (states : likeness.States left right)
    (scopes : likeness.Scopes leftId rightId) :
    likeness.States (left.addEnclosed leftId) (right.addEnclosed rightId) := by
  refine ⟨?_, states.printed, states.counted, ?_⟩
  · obtain ⟨count, leftMade, rightMade⟩ := states.made
    rw [State.size_addEnclosed, State.size_addEnclosed, leftMade, rightMade]
    exact ⟨count + 1, rfl, rfl⟩
  · intro leftOther rightOther others
    have together : leftOther = left.store.nextId ↔ rightOther = right.store.nextId :=
      scopes_oneToOne others states.next
    change Option.Rel likeness.Contents ((left.store.addEnclosed leftId).2.scope? leftOther)
      ((right.store.addEnclosed rightId).2.scope? rightOther)
    rw [Store.scope?_addEnclosed, Store.scope?_addEnclosed]
    by_cases newest : leftOther = left.store.nextId
    · rw [if_pos newest, if_pos (together.1 newest), states.depth scopes]
      exact .some ⟨.some scopes, rfl, Table.alike_empty _, rfl⟩
    · rw [if_neg newest, if_neg fun there => newest (together.2 there)]
      exact states.contents leftOther rightOther others

theorem States.print (states : likeness.States left right) (line : String) :
    likeness.States (left.print line) (right.print line) := by
  refine ⟨states.made, ?_, states.counted, states.contents⟩
  obtain ⟨lines, leftPrinted, rightPrinted⟩ := states.printed
  refine ⟨lines.push line, ?_, ?_⟩
  · rw [Array.append_push, ← leftPrinted]
    rfl
  · rw [Array.append_push, ← rightPrinted]
    rfl

end

end Likeness

end NanoScript
