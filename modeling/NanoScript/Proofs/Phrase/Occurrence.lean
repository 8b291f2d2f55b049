import NanoScript.Phrase.Basic

/-!
Contract: which phrases occur in which.

Owns:
- the parts of a phrase that see the same scope as the phrase, and those that make up the body of a
  function;
- occurrence at any depth, function bodies included;
- the parts that are evaluated with a phrase, and use at any depth: occurrence that leaves out what
  is assigned to and what stands behind a dot.
-/

namespace NanoScript.Phrase

/-- The phrases directly inside a phrase that see the same scope. -/
def parts : Phrase → List Phrase
  | .program body _ => body
  | .variableDeclaration _ value _ _ => value.toList
  | .functionDeclaration .. => []
  | .identifier .. => []
  | .numericLiteral .. => []
  | .binary left _ right _ => [left, right]
  | .assignment target value _ => [target, value]
  | .objectLiteral entries _ => entries.filterMap Entry.value?
  | .call callee arguments _ => callee :: arguments
  | .member object property _ _ => [object, property]

/-- The statements of a function declaration, which see a scope of their own. -/
def body : Phrase → List Phrase
  | .functionDeclaration _ _ body _ => body
  | _ => []

/-- One phrase occurs in another: it is that phrase, or it occurs in one directly inside it. -/
inductive OccursIn (part : Phrase) : Phrase → Prop
  | here : OccursIn part part
  | inPart {child whole : Phrase} (member : child ∈ whole.parts) (occurs : OccursIn part child) :
      OccursIn part whole
  | inBody {child whole : Phrase} (member : child ∈ whole.body) (occurs : OccursIn part child) :
      OccursIn part whole

/-- What occurs in a phrase occurs wherever that phrase does. -/
theorem OccursIn.trans {part middle whole : Phrase} (first : part.OccursIn middle)
    (second : middle.OccursIn whole) : part.OccursIn whole := by
  induction second with
  | here => exact first
  | inPart member _ inductionHypothesis => exact .inPart member inductionHypothesis
  | inBody member _ inductionHypothesis => exact .inBody member inductionHypothesis

theorem OccursIn.of_parts {child whole : Phrase} (member : child ∈ whole.parts) :
    child.OccursIn whole :=
  .inPart member .here

theorem OccursIn.of_body {child whole : Phrase} (member : child ∈ whole.body) :
    child.OccursIn whole :=
  .inBody member .here

/-! ## Use -/

/-- The parts of a phrase that are evaluated with it. -/
def evaluated : Phrase → List Phrase
  | .assignment _ value _ => [value]
  | .member object property computed _ => if computed then [object, property] else [object]
  | phrase => phrase.parts

theorem mem_parts_of_mem_evaluated {child whole : Phrase} (member : child ∈ whole.evaluated) :
    child ∈ whole.parts := by
  cases whole with
  | assignment target value span => exact List.mem_cons_of_mem target member
  | member object property computed span =>
      cases computed with
      | true => exact member
      | false =>
          rw [List.mem_singleton.1 member]
          exact List.mem_cons_self
  | _ => exact member

/-- One phrase is used in another: it may be evaluated when that phrase is, or when a function is
called that is declared there. -/
inductive IsUsedIn (part : Phrase) : Phrase → Prop
  | here : IsUsedIn part part
  | inPart {child whole : Phrase} (member : child ∈ whole.evaluated) (used : IsUsedIn part child) :
      IsUsedIn part whole
  | inBody {child whole : Phrase} (member : child ∈ whole.body) (used : IsUsedIn part child) :
      IsUsedIn part whole

theorem IsUsedIn.trans {part middle whole : Phrase} (first : part.IsUsedIn middle)
    (second : middle.IsUsedIn whole) : part.IsUsedIn whole := by
  induction second with
  | here => exact first
  | inPart member _ inductionHypothesis => exact .inPart member inductionHypothesis
  | inBody member _ inductionHypothesis => exact .inBody member inductionHypothesis

theorem IsUsedIn.occursIn {part whole : Phrase} (used : part.IsUsedIn whole) :
    part.OccursIn whole := by
  induction used with
  | here => exact .here
  | inPart member _ inductionHypothesis =>
      exact .inPart (mem_parts_of_mem_evaluated member) inductionHypothesis
  | inBody member _ inductionHypothesis => exact .inBody member inductionHypothesis

end NanoScript.Phrase
