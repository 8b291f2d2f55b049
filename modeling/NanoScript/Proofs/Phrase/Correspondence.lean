import NanoScript.Proofs.Phrase.Bare
import NanoScript.Proofs.Table

/-!
Contract: phrases of one form at corresponding places.

Owns:
- one layer of a correspondence: phrases and entries of one form whose places and parts correspond;
- correspondence at every depth, as the least relation that contains its own layer, and the
  induction that comes with it;
- the places that a phrase and its entries cover;
- what follows for what occurs in phrases that correspond, and for their bare forms.
-/

namespace NanoScript

/-! ## One layer -/

/-- Entries of one form with one key whose places and values correspond. -/
inductive Entry.Layer (phrases : Phrase → Phrase → Prop) (spans : Span → Span → Prop) :
    Entry → Entry → Prop
  | shorthand {key : String} {left right : Span} (places : spans left right) :
      Layer phrases spans (.shorthand key left) (.shorthand key right)
  | keyed {key : String} {leftValue rightValue : Phrase} {left right : Span}
      (values : phrases leftValue rightValue) (places : spans left right) :
      Layer phrases spans (.keyed key leftValue left) (.keyed key rightValue right)

/-- Phrases of one form whose places, parts and entries correspond. -/
inductive Phrase.Layer (entries : Entry → Entry → Prop) (phrases : Phrase → Phrase → Prop)
    (spans : Span → Span → Prop) : Phrase → Phrase → Prop
  | program {leftBody rightBody : List Phrase} {left right : Span}
      (bodies : List.Forall₂ phrases leftBody rightBody) (places : spans left right) :
      Layer entries phrases spans (.program leftBody left) (.program rightBody right)
  | variableDeclaration {name : String} {leftValue rightValue : Option Phrase} {constant : Bool}
      {left right : Span} (values : Option.Rel phrases leftValue rightValue)
      (places : spans left right) :
      Layer entries phrases spans (.variableDeclaration name leftValue constant left)
        (.variableDeclaration name rightValue constant right)
  | functionDeclaration {name : String} {parameters : List String}
      {leftBody rightBody : List Phrase} {left right : Span}
      (bodies : List.Forall₂ phrases leftBody rightBody) (places : spans left right) :
      Layer entries phrases spans (.functionDeclaration name parameters leftBody left)
        (.functionDeclaration name parameters rightBody right)
  | identifier {name : String} {left right : Span} (places : spans left right) :
      Layer entries phrases spans (.identifier name left) (.identifier name right)
  | numericLiteral {value : Number} {left right : Span} (places : spans left right) :
      Layer entries phrases spans (.numericLiteral value left) (.numericLiteral value right)
  | binary {leftFirst rightFirst leftSecond rightSecond : Phrase} {operator : Operator}
      {left right : Span} (firsts : phrases leftFirst rightFirst)
      (seconds : phrases leftSecond rightSecond) (places : spans left right) :
      Layer entries phrases spans (.binary leftFirst operator leftSecond left)
        (.binary rightFirst operator rightSecond right)
  | assignment {leftTarget rightTarget leftValue rightValue : Phrase} {left right : Span}
      (targets : phrases leftTarget rightTarget) (values : phrases leftValue rightValue)
      (places : spans left right) :
      Layer entries phrases spans (.assignment leftTarget leftValue left)
        (.assignment rightTarget rightValue right)
  | objectLiteral {leftEntries rightEntries : List Entry} {left right : Span}
      (listed : List.Forall₂ entries leftEntries rightEntries) (places : spans left right) :
      Layer entries phrases spans (.objectLiteral leftEntries left)
        (.objectLiteral rightEntries right)
  | call {leftCallee rightCallee : Phrase} {leftArguments rightArguments : List Phrase}
      {left right : Span} (callees : phrases leftCallee rightCallee)
      (arguments : List.Forall₂ phrases leftArguments rightArguments)
      (places : spans left right) :
      Layer entries phrases spans (.call leftCallee leftArguments left)
        (.call rightCallee rightArguments right)
  | member {leftObject rightObject leftProperty rightProperty : Phrase} {computed : Bool}
      {left right : Span} (objects : phrases leftObject rightObject)
      (properties : phrases leftProperty rightProperty) (places : spans left right) :
      Layer entries phrases spans (.member leftObject leftProperty computed left)
        (.member rightObject rightProperty computed right)

section

variable {entries otherEntries : Entry → Entry → Prop}
  {phrases otherPhrases : Phrase → Phrase → Prop}
  {spans otherSpans : Span → Span → Prop} {left right : Phrase}

theorem Phrase.Layer.span (layer : Layer entries phrases spans left right) :
    spans left.span right.span := by
  cases layer <;> assumption

theorem Phrase.Layer.name? (layer : Layer entries phrases spans left right) :
    left.name? = right.name? := by
  cases layer <;> rfl

theorem Phrase.Layer.kind (layer : Layer entries phrases spans left right) :
    left.kind = right.kind := by
  cases layer <;> rfl

theorem Phrase.Layer.mono (layer : Layer entries phrases spans left right)
    (onEntries : ∀ left right, entries left right → otherEntries left right)
    (onPhrases : ∀ left right, phrases left right → otherPhrases left right)
    (onSpans : ∀ left right, spans left right → otherSpans left right) :
    Layer otherEntries otherPhrases otherSpans left right := by
  cases layer with
  | program bodies places => exact .program (bodies.imp onPhrases) (onSpans _ _ places)
  | variableDeclaration values places =>
      cases values with
      | none => exact .variableDeclaration .none (onSpans _ _ places)
      | some values =>
          exact .variableDeclaration (.some (onPhrases _ _ values)) (onSpans _ _ places)
  | functionDeclaration bodies places =>
      exact .functionDeclaration (bodies.imp onPhrases) (onSpans _ _ places)
  | identifier places => exact .identifier (onSpans _ _ places)
  | numericLiteral places => exact .numericLiteral (onSpans _ _ places)
  | binary firsts seconds places =>
      exact .binary (onPhrases _ _ firsts) (onPhrases _ _ seconds) (onSpans _ _ places)
  | assignment targets values places =>
      exact .assignment (onPhrases _ _ targets) (onPhrases _ _ values) (onSpans _ _ places)
  | objectLiteral listed places => exact .objectLiteral (listed.imp onEntries) (onSpans _ _ places)
  | call callees arguments places =>
      exact .call (onPhrases _ _ callees) (arguments.imp onPhrases) (onSpans _ _ places)
  | member objects properties places =>
      exact .member (onPhrases _ _ objects) (onPhrases _ _ properties) (onSpans _ _ places)

theorem Entry.values_layer {left right : List Entry}
    (listed : List.Forall₂ (Layer phrases spans) left right) :
    List.Forall₂ phrases (left.filterMap value?) (right.filterMap value?) := by
  induction listed with
  | nil => exact .nil
  | cons heads _ inductionHypothesis =>
      cases heads with
      | shorthand places => exact inductionHypothesis
      | keyed values places => exact .cons values inductionHypothesis

theorem Phrase.Layer.parts (layer : Layer (Entry.Layer phrases spans) phrases spans left right) :
    List.Forall₂ phrases left.parts right.parts := by
  cases layer with
  | program bodies places => exact bodies
  | variableDeclaration values places =>
      cases values with
      | none => exact .nil
      | some values => exact .cons values .nil
  | functionDeclaration bodies places => exact .nil
  | identifier places => exact .nil
  | numericLiteral places => exact .nil
  | binary firsts seconds places => exact .cons firsts (.cons seconds .nil)
  | assignment targets values places => exact .cons targets (.cons values .nil)
  | objectLiteral listed places => exact Entry.values_layer listed
  | call callees arguments places => exact .cons callees arguments
  | member objects properties places => exact .cons objects (.cons properties .nil)

theorem Phrase.Layer.bodies (layer : Layer entries phrases spans left right) :
    List.Forall₂ phrases left.body right.body := by
  cases layer with
  | functionDeclaration bodies places => exact bodies
  | _ => exact .nil

end

/-! ## Places -/

/-- The entries that a phrase lists. -/
def Phrase.entries : Phrase → List Entry
  | .objectLiteral entries _ => entries
  | _ => []

/-- The bytes that a phrase and its entries cover, those of its parts left aside. -/
def Phrase.places (phrase : Phrase) : List Span :=
  phrase.span :: phrase.entries.map Entry.span

/-! ## Every layer -/

/-- Phrases of one form at every depth, all of whose places correspond. -/
inductive Phrase.Corresponds (spans : Span → Span → Prop) : Phrase → Phrase → Prop
  | ofLayer {left right : Phrase}
      (layer : Phrase.Layer (Entry.Layer (Corresponds spans) spans) (Corresponds spans) spans
        left right) :
      Corresponds spans left right

/-- Entries of one form at every depth, all of whose places correspond. -/
def Entry.Corresponds (spans : Span → Span → Prop) : Entry → Entry → Prop :=
  Entry.Layer (Phrase.Corresponds spans) spans

namespace Phrase.Corresponds

variable {spans : Span → Span → Prop} {left right : Phrase}

theorem layer (alike : Corresponds spans left right) :
    Layer (Entry.Corresponds spans) (Corresponds spans) spans left right := by
  cases alike with
  | ofLayer layer => exact layer

theorem span (alike : Corresponds spans left right) : spans left.span right.span :=
  alike.layer.span

theorem name? (alike : Corresponds spans left right) : left.name? = right.name? :=
  alike.layer.name?

/-- A relation that holds of two phrases as soon as it holds of their parts holds of all phrases
that correspond. -/
theorem of_step {motive : Phrase → Phrase → Prop}
    (step : ∀ {left right}, Layer (Entry.Layer motive spans) motive spans left right →
      motive left right)
    (alike : Corresponds spans left right) : motive left right :=
  @Corresponds.rec spans
    (fun left right _ => motive left right)
    (fun left right _ => Layer (Entry.Layer motive spans) motive spans left right)
    (fun left right _ => List.Forall₂ motive left right)
    (fun left right _ => Option.Rel motive left right)
    (fun left right _ => List.Forall₂ (Entry.Layer motive spans) left right)
    (fun left right _ => Entry.Layer motive spans left right)
    (fun _ layer => step layer)
    (fun _ places bodies => .program bodies places)
    (fun _ places values => .variableDeclaration values places)
    (fun _ places bodies => .functionDeclaration bodies places)
    (fun places => .identifier places)
    (fun places => .numericLiteral places)
    (fun _ _ places firsts seconds => .binary firsts seconds places)
    (fun _ _ places targets values => .assignment targets values places)
    (fun _ places listed => .objectLiteral listed places)
    (fun _ _ places callees arguments => .call callees arguments places)
    (fun _ _ places objects properties => .member objects properties places)
    .nil (fun _ _ heads tails => .cons heads tails)
    (fun _ values => .some values) .none
    .nil (fun _ _ heads tails => .cons heads tails)
    (fun places => .shorthand places) (fun _ places values => .keyed values places)
    left right alike

/-- What occurs in a phrase corresponds to something that occurs in the other phrase. -/
theorem of_occursIn {part whole : Phrase} (occurs : part.OccursIn whole)
    (alike : Corresponds spans whole right) :
    ∃ other, other.OccursIn right ∧ Corresponds spans part other := by
  induction occurs generalizing right with
  | here => exact ⟨right, .here, alike⟩
  | inPart member _ inductionHypothesis =>
      obtain ⟨child, isPart, children⟩ := List.Forall₂.exists_mem alike.layer.parts member
      obtain ⟨other, occurs, parts⟩ := inductionHypothesis children
      exact ⟨other, .inPart isPart occurs, parts⟩
  | inBody member _ inductionHypothesis =>
      obtain ⟨child, isPart, children⟩ := List.Forall₂.exists_mem alike.layer.bodies member
      obtain ⟨other, occurs, parts⟩ := inductionHypothesis children
      exact ⟨other, .inBody isPart occurs, parts⟩

/-- Every place of a phrase corresponds to a place of the other phrase. -/
theorem of_mem_places {place : Span} (alike : Corresponds spans left right)
    (member : place ∈ left.places) : ∃ other, spans place other := by
  rcases List.mem_cons.1 member with rfl | inEntries
  · exact ⟨_, alike.span⟩
  · obtain ⟨entry, listed, rfl⟩ := List.mem_map.1 inEntries
    cases alike.layer with
    | objectLiteral entries places =>
        obtain ⟨other, _, layer⟩ := List.Forall₂.exists_mem entries listed
        cases layer with
        | shorthand places => exact ⟨_, places⟩
        | keyed values places => exact ⟨_, places⟩
    | _ => cases listed

/-- Phrases that correspond are written alike, however their numbers are written. -/
theorem rewritten_eq (literal : Number → Phrase) (alike : Corresponds spans left right) :
    left.rewritten literal = right.rewritten literal := by
  refine of_step (motive := fun left right => left.rewritten literal = right.rewritten literal)
    (fun layer => ?_) alike
  cases layer with
  | program bodies places =>
      rw [rewritten_program, rewritten_program, bodies.map_eq fun same => same]
  | variableDeclaration values places =>
      cases values with
      | none => rfl
      | some values => exact congrArg (fun value => variableDeclaration _ (some value) _ _) values
  | functionDeclaration bodies places =>
      rw [rewritten_functionDeclaration, rewritten_functionDeclaration,
        bodies.map_eq fun same => same]
  | identifier places => rfl
  | numericLiteral places => rfl
  | binary firsts seconds places =>
      exact congrArg₂ (fun first second => binary first _ second _) firsts seconds
  | assignment targets values places =>
      exact congrArg₂ (fun target value => assignment target value _) targets values
  | objectLiteral listed places =>
      rw [rewritten_objectLiteral, rewritten_objectLiteral, listed.map_eq ?_]
      intro left right entries
      cases entries with
      | shorthand places => rfl
      | keyed values places => exact congrArg (Entry.keyed _ · _) values
  | call callees arguments places =>
      rw [rewritten_call, rewritten_call, arguments.map_eq fun same => same]
      exact congrArg (call · _ _) callees
  | member objects properties places =>
      exact congrArg₂ (fun object property => member object property _ _) objects properties

/-- Phrases that correspond are equal up to their places. -/
theorem bare_eq (alike : Corresponds spans left right) : left.bare = right.bare :=
  alike.rewritten_eq _

end Phrase.Corresponds

end NanoScript
