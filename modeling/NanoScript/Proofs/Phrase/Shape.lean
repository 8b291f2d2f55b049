import Mathlib.Data.List.Basic
import NanoScript.Number.Basic
import NanoScript.Proofs.Phrase.Occurrence
import NanoScript.Token.Basic

/-!
Contract: the shape of the phrases that programs consist of.

Owns:
- the texts that can be names;
- which phrases are expressions and which are statements, names and numbers included;
- the shapes of what is directly inside them.

A phrase of the tree type may put anything anywhere, a declaration into an operand or a negative
number into a literal.  What a source text can make is of one of these two shapes.
-/

namespace NanoScript

/-- Letters, at least one, that are no keyword. -/
structure Token.IsName (text : String) : Prop where
  nonempty : text.toList ≠ []
  areLetters : ∀ c ∈ text.toList, Token.isLetter c = true
  noKeyword : Token.Kind.ofWord text = .identifier

namespace Phrase

open Token

/-- An expression: operands, members, arguments and values are expressions, names are names, and
numbers are numbers without a sign. -/
inductive IsExpression : Phrase → Prop
  | identifier {name : String} {span : Span} (isName : IsName name) :
      IsExpression (.identifier name span)
  | numericLiteral {value : Number} {span : Span} (nonnegative : value.isNegative = false)
      (isNumber : value.isNotANumber = false) : IsExpression (.numericLiteral value span)
  | binary {left right : Phrase} {operator : Operator} {span : Span} (first : IsExpression left)
      (second : IsExpression right) : IsExpression (.binary left operator right span)
  | assignment {target value : Phrase} {span : Span} (first : IsExpression target)
      (second : IsExpression value) : IsExpression (.assignment target value span)
  | objectLiteral {entries : List Entry} {span : Span}
      (areNames : ∀ entry ∈ entries, IsName entry.key)
      (values : ∀ entry ∈ entries, ∀ value, entry.value? = some value → IsExpression value) :
      IsExpression (.objectLiteral entries span)
  | call {callee : Phrase} {arguments : List Phrase} {span : Span} (first : IsExpression callee)
      (others : ∀ argument ∈ arguments, IsExpression argument) :
      IsExpression (.call callee arguments span)
  | named {object : Phrase} {name : String} {nameSpan span : Span} (first : IsExpression object)
      (isName : IsName name) : IsExpression (.member object (.identifier name nameSpan) false span)
  | computed {object property : Phrase} {span : Span} (first : IsExpression object)
      (second : IsExpression property) : IsExpression (.member object property true span)

/-- A statement: a declaration, or an expression. -/
inductive IsStatement : Phrase → Prop
  | declaration {name : String} {span : Span} (isName : IsName name) :
      IsStatement (.variableDeclaration name none false span)
  | initialized {name : String} {value : Phrase} {constant : Bool} {span : Span}
      (isName : IsName name) (isExpression : IsExpression value) :
      IsStatement (.variableDeclaration name (some value) constant span)
  | function {name : String} {parameters : List String} {body : List Phrase} {span : Span}
      (isName : IsName name) (areNames : ∀ parameter ∈ parameters, IsName parameter)
      (statements : ∀ statement ∈ body, IsStatement statement) :
      IsStatement (.functionDeclaration name parameters body span)
  | expression {phrase : Phrase} (isExpression : IsExpression phrase) : IsStatement phrase

/-! ## Inside expressions and statements -/

/-- The parts of an expression are expressions, or names behind a dot. -/
theorem IsExpression.of_mem_parts {whole part : Phrase} (isExpression : whole.IsExpression)
    (member : part ∈ whole.parts) : part.IsExpression := by
  cases isExpression with
  | identifier isName => cases member
  | numericLiteral nonnegative isNumber => cases member
  | binary first second =>
      rcases List.mem_pair.1 member with rfl | rfl
      · exact first
      · exact second
  | assignment first second =>
      rcases List.mem_pair.1 member with rfl | rfl
      · exact first
      · exact second
  | objectLiteral areNames values =>
      obtain ⟨entry, listed, written⟩ := List.mem_filterMap.1 member
      exact values entry listed part written
  | call first others =>
      rcases List.mem_cons.1 member with rfl | inArguments
      · exact first
      · exact others part inArguments
  | named first isName =>
      rcases List.mem_pair.1 member with rfl | rfl
      · exact first
      · exact .identifier isName
  | computed first second =>
      rcases List.mem_pair.1 member with rfl | rfl
      · exact first
      · exact second

theorem IsStatement.of_mem_parts {whole part : Phrase} (isStatement : whole.IsStatement)
    (member : part ∈ whole.parts) : part.IsStatement := by
  cases isStatement with
  | declaration isName => cases member
  | initialized isName isExpression =>
      cases List.mem_singleton.1 member
      exact .expression isExpression
  | function isName areNames statements => cases member
  | expression isExpression => exact .expression (isExpression.of_mem_parts member)

theorem IsStatement.of_mem_body {whole part : Phrase} (isStatement : whole.IsStatement)
    (member : part ∈ whole.body) : part.IsStatement := by
  cases isStatement with
  | declaration isName => cases member
  | initialized isName isExpression => cases member
  | function isName areNames statements => exact statements part member
  | expression isExpression => cases isExpression <;> cases member

/-- No program stands inside a program. -/
theorem IsStatement.kind_ne {phrase : Phrase} (isStatement : phrase.IsStatement) :
    phrase.kind ≠ .program := by
  cases isStatement with
  | expression isExpression => cases isExpression <;> exact nofun
  | _ => exact nofun

end Phrase

end NanoScript
