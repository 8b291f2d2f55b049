import NanoScript.Proofs.Evaluation.Likeness

/-!
Contract: phrases without shorthand entries.

Owns:
- a phrase in which every key that stands alone is written out, with the variable of that name as
  its value, in the bodies of functions too;
- the theorem that a phrase and its desugared one are of one form at the same places.
-/

namespace NanoScript

mutual

/-- A phrase with its shorthand entries written out, wherever they are in it. -/
def Phrase.desugared : Phrase → Phrase
  | .program body span => .program (Phrase.eachDesugared body) span
  | .variableDeclaration name (some value) constant span =>
      .variableDeclaration name (some value.desugared) constant span
  | .variableDeclaration name none constant span => .variableDeclaration name none constant span
  | .functionDeclaration name parameters body span =>
      .functionDeclaration name parameters (Phrase.eachDesugared body) span
  | .identifier name span => .identifier name span
  | .numericLiteral value span => .numericLiteral value span
  | .binary left operator right span => .binary left.desugared operator right.desugared span
  | .assignment target value span => .assignment target.desugared value.desugared span
  | .objectLiteral entries span => .objectLiteral (Entry.eachDesugared entries) span
  | .call callee arguments span => .call callee.desugared (Phrase.eachDesugared arguments) span
  | .member object property computed span =>
      .member object.desugared property.desugared computed span

/-- Phrases with their shorthand entries written out, one by one. -/
def Phrase.eachDesugared : List Phrase → List Phrase
  | [] => []
  | phrase :: rest => phrase.desugared :: Phrase.eachDesugared rest

/-- A key that stands alone is given the variable of its name, at its own place. -/
def Entry.desugared : Entry → Entry
  | .shorthand key span => .keyed key (.identifier key span) span
  | .keyed key value span => .keyed key value.desugared span

/-- Entries with shorthand written out, one by one. -/
def Entry.eachDesugared : List Entry → List Entry
  | [] => []
  | entry :: rest => entry.desugared :: Entry.eachDesugared rest

end

theorem Phrase.eachDesugared_eq_map (phrases : List Phrase) :
    Phrase.eachDesugared phrases = phrases.map desugared := by
  induction phrases with
  | nil => rfl
  | cons phrase rest inductionHypothesis => simp [Phrase.eachDesugared, inductionHypothesis]

theorem Entry.eachDesugared_eq_map (entries : List Entry) :
    Entry.eachDesugared entries = entries.map desugared := by
  induction entries with
  | nil => rfl
  | cons entry rest inductionHypothesis => simp [Entry.eachDesugared, inductionHypothesis]

namespace Phrase

/-! ## One layer -/

/-- The second phrase is the first one without shorthand. -/
def Desugars (left right : Phrase) : Prop :=
  right = left.desugared

theorem forall₂_desugars {left right : List Phrase} :
    List.Forall₂ Desugars left right ↔ right = Phrase.eachDesugared left := by
  constructor
  · intro desugars
    induction desugars with
    | nil => rfl
    | @cons head _ _ _ heads _ inductionHypothesis =>
        rw [show _ = head.desugared from heads, inductionHypothesis]
        rfl
  · rintro rfl
    rw [eachDesugared_eq_map]
    exact List.forall₂_map_right_iff.2 (List.forall₂_same.2 fun _ _ => rfl)

end Phrase

theorem Entry.alike_desugared (entry : Entry) :
    Entry.Alike Phrase.Desugars Eq entry entry.desugared := by
  cases entry with
  | shorthand key span => exact .expanded rfl
  | keyed key value span => exact .keyed rfl

namespace Phrase

/-- A phrase and its desugared one are of one form at the same places, and so are their parts. -/
theorem layer_desugared (phrase : Phrase) :
    Layer (Entry.Alike Desugars Eq) Desugars Eq phrase phrase.desugared := by
  cases phrase with
  | program body span => exact .program (forall₂_desugars.2 rfl) rfl
  | variableDeclaration name value constant span =>
      cases value with
      | none => exact .variableDeclaration .none rfl
      | some value => exact .variableDeclaration (.some rfl) rfl
  | functionDeclaration name parameters body span =>
      exact .functionDeclaration (forall₂_desugars.2 rfl) rfl
  | identifier name span => exact .identifier rfl
  | numericLiteral value span => exact .numericLiteral rfl
  | binary left operator right span => exact .binary rfl rfl rfl
  | assignment target value span => exact .assignment rfl rfl rfl
  | objectLiteral entries span =>
      unfold desugared
      rw [Entry.eachDesugared_eq_map]
      refine .objectLiteral (List.forall₂_map_right_iff.2 ?_) rfl
      exact List.forall₂_same.2 fun entry _ => entry.alike_desugared
  | call callee arguments span => exact .call rfl (forall₂_desugars.2 rfl) rfl
  | member object property computed span => exact .member rfl rfl rfl

theorem Desugars.layer {left right : Phrase} (desugars : Desugars left right) :
    Layer (Entry.Alike Desugars Eq) Desugars Eq left right := by
  rw [show right = left.desugared from desugars]
  exact left.layer_desugared

end Phrase

end NanoScript
