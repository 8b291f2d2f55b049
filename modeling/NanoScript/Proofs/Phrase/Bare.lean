import NanoScript.Number.Text
import NanoScript.Proofs.Phrase.Occurrence

/-!
Contract: phrases up to the places that they cover.

Owns:
- the bare form of a phrase, in which every place is forgotten: two phrases are equal up to places
  if their bare forms are equal;
- the bare form of a phrase as its written form shows it, where a number that is not finite is a
  name.
-/

namespace NanoScript

mutual

/-- A phrase with all places forgotten and its numbers written as other phrases. -/
def Phrase.rewritten (literal : Number → Phrase) : Phrase → Phrase
  | .program body _ => .program (Phrase.eachRewritten literal body) (Span.empty 0)
  | .variableDeclaration name (some value) constant _ =>
      .variableDeclaration name (some (value.rewritten literal)) constant (Span.empty 0)
  | .variableDeclaration name none constant _ =>
      .variableDeclaration name none constant (Span.empty 0)
  | .functionDeclaration name parameters body _ =>
      .functionDeclaration name parameters (Phrase.eachRewritten literal body) (Span.empty 0)
  | .identifier name _ => .identifier name (Span.empty 0)
  | .numericLiteral value _ => literal value
  | .binary left operator right _ =>
      .binary (left.rewritten literal) operator (right.rewritten literal) (Span.empty 0)
  | .assignment target value _ =>
      .assignment (target.rewritten literal) (value.rewritten literal) (Span.empty 0)
  | .objectLiteral entries _ => .objectLiteral (Entry.eachRewritten literal entries) (Span.empty 0)
  | .call callee arguments _ =>
      .call (callee.rewritten literal) (Phrase.eachRewritten literal arguments) (Span.empty 0)
  | .member object property computed _ =>
      .member (object.rewritten literal) (property.rewritten literal) computed (Span.empty 0)

/-- Phrases with all places forgotten, one by one. -/
def Phrase.eachRewritten (literal : Number → Phrase) : List Phrase → List Phrase
  | [] => []
  | phrase :: rest => phrase.rewritten literal :: Phrase.eachRewritten literal rest

/-- An entry with all places forgotten. -/
def Entry.rewritten (literal : Number → Phrase) : Entry → Entry
  | .shorthand key _ => .shorthand key (Span.empty 0)
  | .keyed key value _ => .keyed key (value.rewritten literal) (Span.empty 0)

/-- Entries with all places forgotten, one by one. -/
def Entry.eachRewritten (literal : Number → Phrase) : List Entry → List Entry
  | [] => []
  | entry :: rest => entry.rewritten literal :: Entry.eachRewritten literal rest

end

theorem Phrase.eachRewritten_eq_map (literal : Number → Phrase) (phrases : List Phrase) :
    Phrase.eachRewritten literal phrases = phrases.map (rewritten literal) := by
  induction phrases with
  | nil => rfl
  | cons phrase rest inductionHypothesis => simp [Phrase.eachRewritten, inductionHypothesis]

theorem Entry.eachRewritten_eq_map (literal : Number → Phrase) (entries : List Entry) :
    Entry.eachRewritten literal entries = entries.map (rewritten literal) := by
  induction entries with
  | nil => rfl
  | cons entry rest inductionHypothesis => simp [Entry.eachRewritten, inductionHypothesis]

namespace Phrase

/-- A phrase with all places forgotten. -/
def bare : Phrase → Phrase :=
  rewritten fun value => .numericLiteral value (Span.empty 0)

/-- A number as its written form shows it: a number, or a name if it is not finite. -/
def shownNumber (value : Number) : Phrase :=
  if value.isFinite then .numericLiteral value (Span.empty 0)
  else .identifier value.text (Span.empty 0)

/-- A phrase as its written form shows it. -/
def shown : Phrase → Phrase :=
  rewritten shownNumber

end Phrase

namespace Entry

/-- An entry with all places forgotten. -/
def bare : Entry → Entry :=
  rewritten fun value => .numericLiteral value (Span.empty 0)

/-- An entry as its written form shows it. -/
def shown : Entry → Entry :=
  rewritten Phrase.shownNumber

end Entry

namespace Phrase

/-! ## What the bare form keeps -/

section

variable {literal : Number → Phrase}

theorem rewritten_program (body : List Phrase) (span : Span) :
    (program body span).rewritten literal =
      .program (body.map (rewritten literal)) (Span.empty 0) := by
  rw [rewritten, eachRewritten_eq_map]

theorem rewritten_functionDeclaration (name : String) (parameters : List String)
    (body : List Phrase) (span : Span) :
    (functionDeclaration name parameters body span).rewritten literal =
      .functionDeclaration name parameters (body.map (rewritten literal)) (Span.empty 0) := by
  rw [rewritten, eachRewritten_eq_map]

theorem rewritten_call (callee : Phrase) (arguments : List Phrase) (span : Span) :
    (call callee arguments span).rewritten literal =
      .call (callee.rewritten literal) (arguments.map (rewritten literal)) (Span.empty 0) := by
  rw [rewritten, eachRewritten_eq_map]

theorem rewritten_objectLiteral (entries : List Entry) (span : Span) :
    (objectLiteral entries span).rewritten literal =
      .objectLiteral (entries.map (Entry.rewritten literal)) (Span.empty 0) := by
  rw [rewritten, Entry.eachRewritten_eq_map]

end

@[simp] theorem kind_bare (phrase : Phrase) : phrase.bare.kind = phrase.kind := by
  match phrase with
  | .variableDeclaration _ none _ _ => rfl
  | .variableDeclaration _ (some _) _ _ => rfl
  | .program .. | .functionDeclaration .. | .identifier .. | .numericLiteral .. | .binary ..
  | .assignment .. | .objectLiteral .. | .call .. | .member .. => rfl

@[simp] theorem name?_bare (phrase : Phrase) : phrase.bare.name? = phrase.name? := by
  match phrase with
  | .variableDeclaration _ none _ _ => rfl
  | .variableDeclaration _ (some _) _ _ => rfl
  | .program .. | .functionDeclaration .. | .identifier .. | .numericLiteral .. | .binary ..
  | .assignment .. | .objectLiteral .. | .call .. | .member .. => rfl

/-! ## Numbers that are shown as they are -/

/-- Two ways to write numbers that agree on a phrase agree on its parts. -/
theorem rewritten_parts {first second : Number → Phrase} {child whole : Phrase}
    (same : whole.rewritten first = whole.rewritten second) (member : child ∈ whole.parts) :
    child.rewritten first = child.rewritten second := by
  cases whole with
  | program body span =>
      simp only [rewritten_program, program.injEq, and_true] at same
      exact List.map_eq_map_iff.1 same child member
  | variableDeclaration name value constant span =>
      cases value with
      | none => cases member
      | some value =>
          cases List.mem_singleton.1 member
          simpa [rewritten] using same
  | functionDeclaration name parameters body span => cases member
  | identifier name span => cases member
  | numericLiteral value span => cases member
  | binary left operator right span =>
      simp only [rewritten, binary.injEq, and_true, true_and] at same
      rcases List.mem_cons.1 member with rfl | member
      · exact same.1
      · cases List.mem_singleton.1 member
        exact same.2
  | assignment target value span =>
      simp only [rewritten, assignment.injEq, and_true] at same
      rcases List.mem_cons.1 member with rfl | member
      · exact same.1
      · cases List.mem_singleton.1 member
        exact same.2
  | objectLiteral entries span =>
      simp only [rewritten_objectLiteral, objectLiteral.injEq, and_true] at same
      obtain ⟨entry, isEntry, isValue⟩ := List.mem_filterMap.1 member
      have sameEntry := List.map_eq_map_iff.1 same entry isEntry
      cases entry with
      | shorthand key span => cases isValue
      | keyed key value span =>
          cases isValue
          simpa [Entry.rewritten] using sameEntry
  | call callee arguments span =>
      simp only [rewritten_call, call.injEq, and_true] at same
      rcases List.mem_cons.1 member with rfl | member
      · exact same.1
      · exact List.map_eq_map_iff.1 same.2 child member
  | member object property computed span =>
      simp only [rewritten, Phrase.member.injEq, and_true] at same
      rcases List.mem_cons.1 member with rfl | member
      · exact same.1
      · cases List.mem_singleton.1 member
        exact same.2

theorem rewritten_body {first second : Number → Phrase} {child whole : Phrase}
    (same : whole.rewritten first = whole.rewritten second) (member : child ∈ whole.body) :
    child.rewritten first = child.rewritten second := by
  cases whole with
  | functionDeclaration name parameters body span =>
      simp only [rewritten_functionDeclaration, functionDeclaration.injEq, and_true, true_and]
        at same
      exact List.map_eq_map_iff.1 same child member
  | _ => cases member

/-- Two ways to write numbers that agree on a phrase agree on what occurs in it. -/
theorem OccursIn.rewritten {first second : Number → Phrase} {part whole : Phrase}
    (occurs : part.OccursIn whole) (same : whole.rewritten first = whole.rewritten second) :
    part.rewritten first = part.rewritten second := by
  induction occurs with
  | here => exact same
  | inPart member _ inductionHypothesis => exact inductionHypothesis (rewritten_parts same member)
  | inBody member _ inductionHypothesis => exact inductionHypothesis (rewritten_body same member)

/-- If a phrase is shown as it is, every number in it is finite. -/
theorem isFinite_of_shown_eq_bare {whole : Phrase} (same : whole.shown = whole.bare)
    {value : Number} {span : Span} (occurs : (numericLiteral value span).OccursIn whole) :
    value.isFinite = true := by
  have sameNumber : shownNumber value = numericLiteral value (Span.empty 0) := occurs.rewritten same
  unfold shownNumber at sameNumber
  cases finite : value.isFinite with
  | true => rfl
  | false =>
      rw [finite] at sameNumber
      cases sameNumber

end Phrase

end NanoScript
