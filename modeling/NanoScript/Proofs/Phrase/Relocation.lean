import NanoScript.Fault
import NanoScript.Proofs.Phrase.Correspondence
import NanoScript.Proofs.Span

/-!
Contract: phrases with every place replaced.

Owns:
- a phrase with a function applied to every place in it, and a phrase moved by a number of bytes;
- a fault at another place, and a fault moved by a number of bytes;
- phrases whose places are replaced twice, and phrases whose places are left as they are;
- phrases that correspond place by place under a function are one another's relocation;
- one layer of the correspondence between a phrase and its relocation, and between a phrase and
  itself.
-/

namespace NanoScript

mutual

/-- A phrase with every place in it replaced. -/
def Phrase.relocated (place : Span → Span) : Phrase → Phrase
  | .program body span => .program (Phrase.eachRelocated place body) (place span)
  | .variableDeclaration name (some value) constant span =>
      .variableDeclaration name (some (value.relocated place)) constant (place span)
  | .variableDeclaration name none constant span =>
      .variableDeclaration name none constant (place span)
  | .functionDeclaration name parameters body span =>
      .functionDeclaration name parameters (Phrase.eachRelocated place body) (place span)
  | .identifier name span => .identifier name (place span)
  | .numericLiteral value span => .numericLiteral value (place span)
  | .binary left operator right span =>
      .binary (left.relocated place) operator (right.relocated place) (place span)
  | .assignment target value span =>
      .assignment (target.relocated place) (value.relocated place) (place span)
  | .objectLiteral entries span => .objectLiteral (Entry.eachRelocated place entries) (place span)
  | .call callee arguments span =>
      .call (callee.relocated place) (Phrase.eachRelocated place arguments) (place span)
  | .member object property computed span =>
      .member (object.relocated place) (property.relocated place) computed (place span)

/-- Phrases with every place replaced, one by one. -/
def Phrase.eachRelocated (place : Span → Span) : List Phrase → List Phrase
  | [] => []
  | phrase :: rest => phrase.relocated place :: Phrase.eachRelocated place rest

/-- An entry with every place in it replaced. -/
def Entry.relocated (place : Span → Span) : Entry → Entry
  | .shorthand key span => .shorthand key (place span)
  | .keyed key value span => .keyed key (value.relocated place) (place span)

/-- Entries with every place replaced, one by one. -/
def Entry.eachRelocated (place : Span → Span) : List Entry → List Entry
  | [] => []
  | entry :: rest => entry.relocated place :: Entry.eachRelocated place rest

end

/-- A phrase that stands a number of bytes further on. -/
def Phrase.move (distance : Nat) : Phrase → Phrase :=
  Phrase.relocated (Span.move distance)

/-- A fault at another place. -/
def Fault.relocated (place : Span → Span) : Fault → Fault
  | .scope error span => .scope error (place span)
  | .divisionByZero span => .divisionByZero (place span)
  | .invalidAssignmentTarget span => .invalidAssignmentTarget (place span)
  | .arityMismatch name expected found span => .arityMismatch name expected found (place span)
  | .notAFunction found span => .notAFunction found (place span)
  | .notAnObject found span => .notAnObject found (place span)
  | .invalidPropertyKey found span => .invalidPropertyKey found (place span)
  | .native message span => .native message (place span)

/-- A fault that points a number of bytes further on. -/
def Fault.move (distance : Nat) : Fault → Fault :=
  Fault.relocated (Span.move distance)

section

variable {place : Span → Span}

theorem Phrase.eachRelocated_eq_map (phrases : List Phrase) :
    Phrase.eachRelocated place phrases = phrases.map (relocated place) := by
  induction phrases with
  | nil => rfl
  | cons phrase rest inductionHypothesis => simp [Phrase.eachRelocated, inductionHypothesis]

theorem Entry.eachRelocated_eq_map (entries : List Entry) :
    Entry.eachRelocated place entries = entries.map (relocated place) := by
  induction entries with
  | nil => rfl
  | cons entry rest inductionHypothesis => simp [Entry.eachRelocated, inductionHypothesis]

theorem Fault.span_relocated (fault : Fault) :
    (fault.relocated place).span = place fault.span := by
  cases fault <;> rfl

theorem Fault.relocated_id (fault : Fault) : fault.relocated id = fault := by
  cases fault <;> rfl

theorem Fault.move_move (near far : Nat) (fault : Fault) :
    (fault.move near).move far = fault.move (near + far) := by
  cases fault <;> exact congrArg _ (Span.move_move near far _)

/-- A fault that is moved by different distances points at different places. -/
theorem Fault.move_inj {near far : Nat} {fault : Fault} :
    fault.move near = fault.move far ↔ near = far := by
  refine ⟨fun same => ?_, congrArg (fault.move ·)⟩
  have starts := congrArg (fun fault => (Fault.span fault).start) same
  simp only [Fault.move, Fault.span_relocated, Span.move] at starts
  exact Nat.add_left_cancel starts

namespace Phrase

theorem relocated_program (body : List Phrase) (span : Span) :
    (program body span).relocated place = .program (body.map (relocated place)) (place span) := by
  rw [relocated, eachRelocated_eq_map]

theorem relocated_functionDeclaration (name : String) (parameters : List String)
    (body : List Phrase) (span : Span) :
    (functionDeclaration name parameters body span).relocated place =
      .functionDeclaration name parameters (body.map (relocated place)) (place span) := by
  rw [relocated, eachRelocated_eq_map]

theorem relocated_call (callee : Phrase) (arguments : List Phrase) (span : Span) :
    (call callee arguments span).relocated place =
      .call (callee.relocated place) (arguments.map (relocated place)) (place span) := by
  rw [relocated, eachRelocated_eq_map]

theorem relocated_objectLiteral (entries : List Entry) (span : Span) :
    (objectLiteral entries span).relocated place =
      .objectLiteral (entries.map (Entry.relocated place)) (place span) := by
  rw [relocated, Entry.eachRelocated_eq_map]

/-! ## Relocation and correspondence -/

/-- Phrases that correspond place by place differ in their places alone. -/
theorem Corresponds.eq_relocated {left right : Phrase}
    (alike : Corresponds (fun left right => right = place left) left right) :
    right = left.relocated place := by
  refine of_step (motive := fun left right => right = left.relocated place)
    (fun layer => ?_) alike
  have each {left right : List Phrase}
      (phrases : List.Forall₂ (fun left right => right = left.relocated place) left right) :
      right = left.map (relocated place) := by
    induction phrases with
    | nil => rfl
    | cons heads _ inductionHypothesis => rw [heads, inductionHypothesis, List.map_cons]
  cases layer with
  | program bodies places => rw [relocated_program, each bodies, places]
  | variableDeclaration values places =>
      subst places
      cases values with
      | none => rfl
      | some values => rw [values, relocated]
  | functionDeclaration bodies places =>
      rw [relocated_functionDeclaration, each bodies, places]
  | identifier places => rw [places, relocated]
  | numericLiteral places => rw [places, relocated]
  | binary firsts seconds places => rw [firsts, seconds, places, relocated]
  | assignment targets values places => rw [targets, values, places, relocated]
  | objectLiteral listed places =>
      rw [relocated_objectLiteral, places]
      refine congrArg (objectLiteral · _) ?_
      induction listed with
      | nil => rfl
      | cons heads _ inductionHypothesis =>
          rw [inductionHypothesis, List.map_cons]
          cases heads with
          | shorthand places => rw [places, Entry.relocated]
          | keyed values places => rw [values, places, Entry.relocated]
  | call callees arguments places => rw [relocated_call, callees, each arguments, places]
  | member objects properties places => rw [objects, properties, places, relocated]

/-- A phrase corresponds to its relocation if its parts and its places do. -/
theorem layer_relocated {phrases : Phrase → Phrase → Prop} {spans : Span → Span → Prop}
    (phrase : Phrase) (parts : ∀ part ∈ phrase.parts, phrases part (part.relocated place))
    (bodies : ∀ part ∈ phrase.body, phrases part (part.relocated place))
    (places : ∀ span ∈ phrase.places, spans span (place span)) :
    Layer (Entry.Layer phrases spans) phrases spans phrase (phrase.relocated place) := by
  have whole : spans phrase.span (place phrase.span) := places _ List.mem_cons_self
  have each {listed : List Phrase}
      (members : ∀ part ∈ listed, phrases part (part.relocated place)) :
      List.Forall₂ phrases listed (listed.map (relocated place)) :=
    List.forall₂_map_right_iff.2 (List.forall₂_same.2 members)
  cases phrase with
  | program body span =>
      rw [relocated_program]
      exact .program (each parts) whole
  | variableDeclaration name value constant span =>
      cases value with
      | none => exact .variableDeclaration .none whole
      | some value =>
          exact .variableDeclaration (.some (parts value (List.mem_singleton.2 rfl))) whole
  | functionDeclaration name parameters body span =>
      rw [relocated_functionDeclaration]
      exact .functionDeclaration (each bodies) whole
  | identifier name span => exact .identifier whole
  | numericLiteral value span => exact .numericLiteral whole
  | binary left operator right span =>
      exact .binary (parts left List.mem_cons_self)
        (parts right (List.mem_cons_of_mem _ List.mem_cons_self)) whole
  | assignment target value span =>
      exact .assignment (parts target List.mem_cons_self)
        (parts value (List.mem_cons_of_mem _ List.mem_cons_self)) whole
  | objectLiteral entries span =>
      rw [relocated_objectLiteral]
      refine .objectLiteral (List.forall₂_map_right_iff.2 (List.forall₂_same.2 ?_)) whole
      intro entry listed
      have inside : spans entry.span (place entry.span) :=
        places _ (List.mem_cons_of_mem _ (List.mem_map_of_mem listed))
      cases entry with
      | shorthand key span => exact .shorthand inside
      | keyed key value span =>
          exact .keyed (parts value (List.mem_filterMap.2 ⟨_, listed, rfl⟩)) inside
  | call callee arguments span =>
      rw [relocated_call]
      exact .call (parts callee List.mem_cons_self)
        (each fun argument listed => parts argument (List.mem_cons_of_mem _ listed)) whole
  | member object property computed span =>
      exact .member (parts object List.mem_cons_self)
        (parts property (List.mem_cons_of_mem _ List.mem_cons_self)) whole

end Phrase

end

/-! ## Places replaced twice, and places left as they are -/

mutual

theorem Phrase.relocated_relocated (first second : Span → Span) (phrase : Phrase) :
    (phrase.relocated first).relocated second = phrase.relocated (second ∘ first) := by
  match phrase with
  | .program body _ =>
      simp only [Phrase.relocated, Phrase.eachRelocated_eachRelocated, Function.comp]
  | .variableDeclaration _ none _ _ => rfl
  | .variableDeclaration _ (some value) _ _ =>
      simp only [Phrase.relocated, value.relocated_relocated, Function.comp]
  | .functionDeclaration _ _ body _ =>
      simp only [Phrase.relocated, Phrase.eachRelocated_eachRelocated, Function.comp]
  | .identifier _ _ => rfl
  | .numericLiteral _ _ => rfl
  | .binary left _ right _ =>
      simp only [Phrase.relocated, left.relocated_relocated, right.relocated_relocated,
        Function.comp]
  | .assignment target value _ =>
      simp only [Phrase.relocated, target.relocated_relocated, value.relocated_relocated,
        Function.comp]
  | .objectLiteral entries _ =>
      simp only [Phrase.relocated, Entry.eachRelocated_eachRelocated, Function.comp]
  | .call callee arguments _ =>
      simp only [Phrase.relocated, callee.relocated_relocated,
        Phrase.eachRelocated_eachRelocated, Function.comp]
  | .member object property _ _ =>
      simp only [Phrase.relocated, object.relocated_relocated, property.relocated_relocated,
        Function.comp]

theorem Phrase.eachRelocated_eachRelocated (first second : Span → Span)
    (phrases : List Phrase) :
    Phrase.eachRelocated second (Phrase.eachRelocated first phrases) =
      Phrase.eachRelocated (second ∘ first) phrases := by
  match phrases with
  | [] => rfl
  | phrase :: rest =>
      simp only [Phrase.eachRelocated, phrase.relocated_relocated,
        Phrase.eachRelocated_eachRelocated first second rest]

theorem Entry.relocated_relocated (first second : Span → Span) (entry : Entry) :
    (entry.relocated first).relocated second = entry.relocated (second ∘ first) := by
  match entry with
  | .shorthand _ _ => rfl
  | .keyed _ value _ => simp only [Entry.relocated, value.relocated_relocated, Function.comp]

theorem Entry.eachRelocated_eachRelocated (first second : Span → Span) (entries : List Entry) :
    Entry.eachRelocated second (Entry.eachRelocated first entries) =
      Entry.eachRelocated (second ∘ first) entries := by
  match entries with
  | [] => rfl
  | entry :: rest =>
      simp only [Entry.eachRelocated, entry.relocated_relocated,
        Entry.eachRelocated_eachRelocated first second rest]

end

/-- To move a phrase twice is to move it by both distances. -/
theorem Phrase.move_move (near far : Nat) (phrase : Phrase) :
    (phrase.move near).move far = phrase.move (near + far) := by
  refine (phrase.relocated_relocated _ _).trans (congrArg (Phrase.relocated · phrase) ?_)
  funext span
  exact Span.move_move near far span

mutual

theorem Phrase.relocated_id (phrase : Phrase) : phrase.relocated id = phrase := by
  match phrase with
  | .program body _ => rw [Phrase.relocated, Phrase.eachRelocated_id body, id]
  | .variableDeclaration _ none _ _ => rfl
  | .variableDeclaration _ (some value) _ _ => rw [Phrase.relocated, Phrase.relocated_id value, id]
  | .functionDeclaration _ _ body _ => rw [Phrase.relocated, Phrase.eachRelocated_id body, id]
  | .identifier _ _ => rfl
  | .numericLiteral _ _ => rfl
  | .binary left _ right _ =>
      rw [Phrase.relocated, Phrase.relocated_id left, Phrase.relocated_id right, id]
  | .assignment target value _ =>
      rw [Phrase.relocated, Phrase.relocated_id target, Phrase.relocated_id value, id]
  | .objectLiteral entries _ => rw [Phrase.relocated, Entry.eachRelocated_id entries, id]
  | .call callee arguments _ =>
      rw [Phrase.relocated, Phrase.relocated_id callee, Phrase.eachRelocated_id arguments, id]
  | .member object property _ _ =>
      rw [Phrase.relocated, Phrase.relocated_id object, Phrase.relocated_id property, id]

theorem Phrase.eachRelocated_id (phrases : List Phrase) :
    Phrase.eachRelocated id phrases = phrases := by
  match phrases with
  | [] => rfl
  | phrase :: rest =>
      rw [Phrase.eachRelocated, Phrase.relocated_id phrase, Phrase.eachRelocated_id rest]

theorem Entry.relocated_id (entry : Entry) : entry.relocated id = entry := by
  match entry with
  | .shorthand _ _ => rfl
  | .keyed _ value _ => rw [Entry.relocated, Phrase.relocated_id value, id]

theorem Entry.eachRelocated_id (entries : List Entry) :
    Entry.eachRelocated id entries = entries := by
  match entries with
  | [] => rfl
  | entry :: rest => rw [Entry.eachRelocated, Entry.relocated_id entry, Entry.eachRelocated_id rest]

end

/-- A phrase corresponds to itself if its parts and its places do. -/
theorem Phrase.layer_self {phrases : Phrase → Phrase → Prop} {spans : Span → Span → Prop}
    (phrase : Phrase) (parts : ∀ part ∈ phrase.parts, phrases part part)
    (bodies : ∀ part ∈ phrase.body, phrases part part)
    (places : ∀ span ∈ phrase.places, spans span span) :
    Layer (Entry.Layer phrases spans) phrases spans phrase phrase := by
  have layer : Layer (Entry.Layer phrases spans) phrases spans phrase (phrase.relocated id) := by
    refine phrase.layer_relocated (fun part member => ?_) (fun part member => ?_) places
    · rw [part.relocated_id]
      exact parts part member
    · rw [part.relocated_id]
      exact bodies part member
  rwa [phrase.relocated_id] at layer

end NanoScript
