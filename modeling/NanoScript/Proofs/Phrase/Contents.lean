import Mathlib.Data.List.Basic
import NanoScript.Proofs.Phrase.Occurrence

/-!
Contract: everything that occurs in a phrase, as a list.

Owns:
- the list of a phrase and of all phrases inside it, function bodies included;
- the theorem that it lists what occurs in the phrase and nothing else;
- what follows for properties that can be decided: whether everything that occurs in a phrase has
  one can be decided too.
-/

namespace NanoScript

mutual

/-- All phrases inside a phrase, at any depth. -/
def Phrase.inside : Phrase → List Phrase
  | .program body _ => Phrase.contentsOfAll body
  | .variableDeclaration _ (some value) _ _ => value :: value.inside
  | .variableDeclaration _ none _ _ => []
  | .functionDeclaration _ _ body _ => Phrase.contentsOfAll body
  | .identifier _ _ => []
  | .numericLiteral _ _ => []
  | .binary left _ right _ => (left :: left.inside) ++ (right :: right.inside)
  | .assignment target value _ => (target :: target.inside) ++ (value :: value.inside)
  | .objectLiteral entries _ => Entry.contentsOfAll entries
  | .call callee arguments _ => (callee :: callee.inside) ++ Phrase.contentsOfAll arguments
  | .member object property _ _ => (object :: object.inside) ++ (property :: property.inside)

/-- Phrases and all phrases inside them. -/
def Phrase.contentsOfAll : List Phrase → List Phrase
  | [] => []
  | phrase :: rest => (phrase :: phrase.inside) ++ Phrase.contentsOfAll rest

/-- The values that entries write out and all phrases inside them. -/
def Entry.contentsOfAll : List Entry → List Phrase
  | [] => []
  | .shorthand _ _ :: rest => Entry.contentsOfAll rest
  | .keyed _ value _ :: rest => (value :: value.inside) ++ Entry.contentsOfAll rest

end

/-- A phrase and all phrases inside it. -/
def Phrase.contents (phrase : Phrase) : List Phrase :=
  phrase :: phrase.inside

theorem Phrase.contentsOfAll_eq (phrases : List Phrase) :
    Phrase.contentsOfAll phrases = phrases.flatMap Phrase.contents := by
  induction phrases with
  | nil => rfl
  | cons phrase rest inductionHypothesis =>
      rw [Phrase.contentsOfAll, List.flatMap_cons, inductionHypothesis, Phrase.contents]

theorem Entry.contentsOfAll_eq (entries : List Entry) :
    Entry.contentsOfAll entries = (entries.filterMap Entry.value?).flatMap Phrase.contents := by
  induction entries with
  | nil => rfl
  | cons entry rest inductionHypothesis =>
      cases entry with
      | shorthand key span => exact inductionHypothesis
      | keyed key value span =>
          rw [Entry.contentsOfAll, inductionHypothesis]
          rfl

namespace Phrase

variable {part child whole : Phrase}

/-- What is inside a phrase is what the phrases directly inside it contain. -/
theorem inside_eq (phrase : Phrase) :
    phrase.inside = phrase.parts.flatMap contents ++ phrase.body.flatMap contents := by
  cases phrase with
  | variableDeclaration name value constant span =>
      cases value <;> simp [inside, parts, body, contents]
  | _ =>
      simp [inside, parts, body, contents, contentsOfAll_eq, Entry.contentsOfAll_eq]

theorem sizeOf_lt_of_mem_parts (member : child ∈ whole.parts) : sizeOf child < sizeOf whole := by
  cases whole with
  | program body span =>
      have smaller := List.sizeOf_lt_of_mem (show child ∈ body from member)
      simp only [program.sizeOf_spec]
      omega
  | variableDeclaration name value constant span =>
      obtain rfl := Option.mem_toList.1 member
      simp only [variableDeclaration.sizeOf_spec, Option.some.sizeOf_spec]
      omega
  | objectLiteral entries span =>
      obtain ⟨entry, listed, written⟩ := List.mem_filterMap.1 member
      have smaller := List.sizeOf_lt_of_mem listed
      cases entry with
      | shorthand key place => cases written
      | keyed key value place =>
          cases written
          simp only [objectLiteral.sizeOf_spec, Entry.keyed.sizeOf_spec] at smaller ⊢
          omega
  | call callee arguments span =>
      simp only [call.sizeOf_spec]
      rcases List.mem_cons.1 member with rfl | listed
      · omega
      · have smaller := List.sizeOf_lt_of_mem listed
        omega
  | functionDeclaration | identifier | numericLiteral => cases member
  | binary left operator right span =>
      simp only [binary.sizeOf_spec]
      rcases List.mem_pair.1 member with rfl | rfl <;> omega
  | assignment target value span =>
      simp only [assignment.sizeOf_spec]
      rcases List.mem_pair.1 member with rfl | rfl <;> omega
  | member object property computed span =>
      simp only [Phrase.member.sizeOf_spec]
      rcases List.mem_pair.1 member with rfl | rfl <;> omega

theorem sizeOf_lt_of_mem_body (member : child ∈ whole.body) : sizeOf child < sizeOf whole := by
  cases whole with
  | functionDeclaration name parameters body span =>
      have smaller := List.sizeOf_lt_of_mem (show child ∈ body from member)
      simp only [functionDeclaration.sizeOf_spec]
      omega
  | _ => cases member

theorem OccursIn.mem_contents (occurs : part.OccursIn whole) : part ∈ whole.contents := by
  induction occurs with
  | here => exact List.mem_cons_self
  | inPart member _ inductionHypothesis =>
      refine List.mem_cons_of_mem _ ?_
      rw [inside_eq]
      exact List.mem_append_left _ (List.mem_flatMap.2 ⟨_, member, inductionHypothesis⟩)
  | inBody member _ inductionHypothesis =>
      refine List.mem_cons_of_mem _ ?_
      rw [inside_eq]
      exact List.mem_append_right _ (List.mem_flatMap.2 ⟨_, member, inductionHypothesis⟩)

theorem occursIn_of_mem_contents {whole : Phrase} (listed : part ∈ whole.contents) :
    part.OccursIn whole := by
  rcases List.mem_cons.1 listed with rfl | isInside
  · exact .here
  · rw [inside_eq] at isInside
    rcases List.mem_append.1 isInside with inParts | inBody
    · obtain ⟨child, member, inChild⟩ := List.mem_flatMap.1 inParts
      exact .inPart member (occursIn_of_mem_contents inChild)
    · obtain ⟨child, member, inChild⟩ := List.mem_flatMap.1 inBody
      exact .inBody member (occursIn_of_mem_contents inChild)
termination_by sizeOf whole
decreasing_by
  · exact sizeOf_lt_of_mem_parts member
  · exact sizeOf_lt_of_mem_body member

theorem mem_contents_iff : part ∈ whole.contents ↔ part.OccursIn whole :=
  ⟨occursIn_of_mem_contents, OccursIn.mem_contents⟩

instance (property : Phrase → Prop) [DecidablePred property] (whole : Phrase) :
    Decidable (∀ part : Phrase, part.OccursIn whole → property part) :=
  decidable_of_iff (∀ part ∈ whole.contents, property part)
    (forall_congr' fun _ => imp_congr_left mem_contents_iff)

end Phrase

end NanoScript
