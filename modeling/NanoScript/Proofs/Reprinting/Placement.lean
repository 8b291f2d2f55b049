import NanoScript.Proofs.Grammar.Follow
import NanoScript.Proofs.Phrase.Occurrence
import NanoScript.Proofs.Phrase.Shape
import NanoScript.Proofs.Phrase.Words

/-!
Contract: which phrases may stand where, if the written form is to be read back.

Owns:
- the statements that a phrase lists;
- the conditions on the numbers, object literals, calls and neighbouring statements in a program;
- the first word of a written form.

The written form puts parentheses around binary expressions and assignments only, and no semicolon
behind an expression.  An object literal or a call in a place where the grammar has no room for it
would need parentheses of its own, and a parenthesis that opens a statement would continue the
expression before it.
-/

namespace NanoScript

namespace Phrase

/-- The statements that a program or a function body lists. -/
def statements : Phrase → List Phrase
  | .program body _ => body
  | .functionDeclaration _ _ body _ => body
  | _ => []

/-- Whether a statement is a declaration; it is an expression otherwise. -/
def isDeclaration : Phrase → Bool
  | .variableDeclaration .. | .functionDeclaration .. => true
  | _ => false

/-- Whether the written form of a phrase opens with a parenthesis: its leftmost part, through
objects and callees, is a binary expression or an assignment. -/
def opensWithParenthesis : Phrase → Bool
  | .binary .. | .assignment .. => true
  | .member object _ _ _ => object.opensWithParenthesis
  | .call callee _ _ => callee.opensWithParenthesis
  | _ => false

/-- Neither an operand nor an object nor a callee is an object literal. -/
def HasNoLiteralPart : Phrase → Prop
  | .binary left _ right _ => left.kind ≠ .objectLiteral ∧ right.kind ≠ .objectLiteral
  | .member object _ _ _ => object.kind ≠ .objectLiteral
  | .call callee _ _ => callee.kind ≠ .objectLiteral
  | _ => True

/-- The object of a member access is no call. -/
def HasNoCallObject : Phrase → Prop
  | .member object _ _ _ => object.kind ≠ .call
  | _ => True

/-- An expression that is no object literal does not stand before a statement that opens with a
parenthesis. -/
def MayStandBefore (first second : Phrase) : Prop :=
  first.isDeclaration = false → first.kind ≠ .objectLiteral → second.opensWithParenthesis = false

/-- What the written form of a program needs to be read back as that program: throughout it,
function bodies included, numbers are finite, object literals and calls stand where the grammar has
room for them, and every statement may stand before the next one. -/
structure Reprintable (program : Phrase) : Prop where
  finite : ∀ value span, (numericLiteral value span).OccursIn program → value.isFinite = true
  literals : ∀ phrase : Phrase, phrase.OccursIn program → phrase.HasNoLiteralPart
  calls : ∀ phrase : Phrase, phrase.OccursIn program → phrase.HasNoCallObject
  statements : ∀ phrase : Phrase, phrase.OccursIn program → phrase.statements.IsChain MayStandBefore

/-! ## Placement, one phrase at a time -/

/-- The parts and the statements of a phrase are in place. -/
structure IsPlaced (phrase : Phrase) : Prop where
  literals : phrase.HasNoLiteralPart
  calls : phrase.HasNoCallObject
  statements : phrase.statements.IsChain MayStandBefore

/-- Everything that occurs in a phrase is in place. -/
def WellPlaced (whole : Phrase) : Prop :=
  ∀ phrase : Phrase, phrase.OccursIn whole → phrase.IsPlaced

theorem WellPlaced.intro {whole : Phrase} (here : whole.IsPlaced)
    (parts : ∀ child ∈ whole.parts, child.WellPlaced)
    (body : ∀ child ∈ whole.body, child.WellPlaced) : whole.WellPlaced := by
  intro phrase occurs
  cases occurs with
  | here => exact here
  | inPart member occurs => exact parts _ member phrase occurs
  | inBody member occurs => exact body _ member phrase occurs

/-- A phrase without statements is in place if its parts are. -/
theorem WellPlaced.of_parts {whole : Phrase} (literals : whole.HasNoLiteralPart)
    (calls : whole.HasNoCallObject) (noStatements : whole.statements = [])
    (parts : ∀ child ∈ whole.parts, child.WellPlaced)
    (noBody : whole.body = []) : whole.WellPlaced := by
  refine .intro ⟨literals, calls, ?_⟩ parts ?_
  · rw [noStatements]
    exact .nil
  · rw [noBody]
    intro child member
    cases member

theorem reprintable_iff {program : Phrase} :
    program.Reprintable ↔
      (∀ value span, (numericLiteral value span).OccursIn program → value.isFinite = true) ∧
        program.WellPlaced := by
  constructor
  · intro reprintable
    refine ⟨reprintable.finite, fun phrase occurs => ⟨reprintable.literals phrase occurs,
      reprintable.calls phrase occurs, reprintable.statements phrase occurs⟩⟩
  · rintro ⟨finite, placed⟩
    exact ⟨finite, fun phrase occurs => (placed phrase occurs).literals,
      fun phrase occurs => (placed phrase occurs).calls,
      fun phrase occurs => (placed phrase occurs).statements⟩

/-- What occurs in a phrase that is read back needs no more than the phrase. -/
theorem Reprintable.of_occursIn {part whole : Phrase} (reprintable : whole.Reprintable)
    (occurs : part.OccursIn whole) : part.Reprintable :=
  ⟨fun value span inPart => reprintable.finite value span (inPart.trans occurs),
    fun phrase inPart => reprintable.literals phrase (inPart.trans occurs),
    fun phrase inPart => reprintable.calls phrase (inPart.trans occurs),
    fun phrase inPart => reprintable.statements phrase (inPart.trans occurs)⟩

theorem Reprintable.part {child whole : Phrase} (reprintable : whole.Reprintable)
    (member : child ∈ whole.parts) : child.Reprintable :=
  reprintable.of_occursIn (.of_parts member)

theorem Reprintable.statement {child whole : Phrase} (reprintable : whole.Reprintable)
    (member : child ∈ whole.body) : child.Reprintable :=
  reprintable.of_occursIn (.of_body member)

end Phrase

/-! ## The first word -/

namespace Word

/-- The kind of the first word; there is an end of input behind the last one. -/
def firstKind : List Word → Token.Kind
  | [] => .endOfInput
  | word :: _ => word.kind

@[simp] theorem firstKind_cons (word : Word) (rest : List Word) :
    firstKind (word :: rest) = word.kind :=
  rfl

theorem firstKind_append {left : List Word} (nonempty : left ≠ []) (right : List Word) :
    firstKind (left ++ right) = firstKind left := by
  cases left with
  | nil => exact absurd rfl nonempty
  | cons word rest => rfl

end Word

open Word

/-- The words of an expression start as expressions do, and with a parenthesis only if the written
form opens with one. -/
theorem Phrase.IsExpression.firstKind_words {phrase : Phrase} (shape : phrase.IsExpression) :
    phrase.words ≠ [] ∧ Grammar.startsExpression (firstKind phrase.words) = true ∧
      (phrase.opensWithParenthesis = true ↔ firstKind phrase.words = .openParen) := by
  induction shape with
  | identifier isName =>
      exact ⟨List.cons_ne_nil _ _, rfl, by simp [words, ofName, opensWithParenthesis]⟩
  | @numericLiteral value span nonnegative isNumber =>
      refine ⟨List.cons_ne_nil _ _, ?_⟩
      cases finite : value.isFinite with
      | true =>
          simp [words, ofNumber, finite, opensWithParenthesis, Grammar.startsExpression,
            Grammar.startsOperand]
      | false =>
          simp [words, ofNumber, finite, opensWithParenthesis, Grammar.startsExpression,
            Grammar.startsOperand]
  | binary | assignment => exact ⟨List.cons_ne_nil _ _, rfl, fun _ => rfl, fun _ => rfl⟩
  | objectLiteral areNames _ _ =>
      exact ⟨List.cons_ne_nil _ _, rfl, by simp [words, ofMark, Token.Kind.ofMark?, opensWithParenthesis]⟩
  | call _ _ calleeStarts _ =>
      obtain ⟨nonempty, starts, opens⟩ := calleeStarts
      rw [words, firstKind_append nonempty]
      exact ⟨List.append_ne_nil_of_left_ne_nil nonempty _, starts, opens⟩
  | named _ _ objectStarts =>
      obtain ⟨nonempty, starts, opens⟩ := objectStarts
      rw [words, firstKind_append nonempty]
      exact ⟨List.append_ne_nil_of_left_ne_nil nonempty _, starts, opens⟩
  | computed _ _ objectStarts _ =>
      obtain ⟨nonempty, starts, opens⟩ := objectStarts
      rw [words, firstKind_append nonempty]
      exact ⟨List.append_ne_nil_of_left_ne_nil nonempty _, starts, opens⟩

theorem Phrase.IsExpression.startsExpression_append {phrase : Phrase} (shape : phrase.IsExpression)
    (rest : List Word) : Grammar.startsExpression (firstKind (phrase.words ++ rest)) = true := by
  obtain ⟨nonempty, starts, _⟩ := shape.firstKind_words
  rw [firstKind_append nonempty]
  exact starts

/-- The words of a statement start as statements do, and with a parenthesis exactly if the written
form opens with one. -/
theorem Phrase.IsStatement.firstKind_append {phrase : Phrase} (shape : phrase.IsStatement)
    (rest : List Word) :
    Grammar.startsStatement (firstKind (phrase.words ++ rest)) = true ∧
      (phrase.opensWithParenthesis = true ↔ firstKind (phrase.words ++ rest) = .openParen) := by
  cases shape with
  | declaration => exact ⟨rfl, by simp [words, opensWithParenthesis, letKeyword]⟩
  | @initialized _ _ constant =>
      cases constant with
      | false => exact ⟨rfl, by simp [words, opensWithParenthesis, letKeyword]⟩
      | true => exact ⟨rfl, by simp [words, opensWithParenthesis, constKeyword]⟩
  | function => exact ⟨rfl, by simp [words, opensWithParenthesis, fnKeyword]⟩
  | expression isExpression =>
      obtain ⟨nonempty, starts, opens⟩ := isExpression.firstKind_words
      rw [Word.firstKind_append nonempty]
      exact ⟨Grammar.startsStatement_of_startsExpression starts, opens⟩

end NanoScript
