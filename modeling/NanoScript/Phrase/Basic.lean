import NanoScript.Number.Basic
import NanoScript.Operator
import NanoScript.Span

/-!
Contract: phrases, the programs, declarations and expressions of the language as trees.

Owns:
- the forms of phrases and of the entries of object literals, each with the bytes it covers;
- the names of the forms.

Any phrase may stand wherever a phrase stands; which of these trees a source text can make is
not decided here.
-/

namespace NanoScript

mutual

/-- A program, a declaration or an expression. -/
inductive Phrase where
  | program (body : List Phrase) (span : Span)
  | variableDeclaration (name : String) (value : Option Phrase) (constant : Bool) (span : Span)
  | functionDeclaration (name : String) (parameters : List String) (body : List Phrase)
      (span : Span)
  | identifier (name : String) (span : Span)
  | numericLiteral (value : Number) (span : Span)
  | binary (left : Phrase) (operator : Operator) (right : Phrase) (span : Span)
  | assignment (target value : Phrase) (span : Span)
  | objectLiteral (entries : List Entry) (span : Span)
  | call (callee : Phrase) (arguments : List Phrase) (span : Span)
  | member (object property : Phrase) (computed : Bool) (span : Span)

/-- An entry of an object literal: a key with its value, or a key alone that takes the value of
the variable of that name. -/
inductive Entry where
  | shorthand (key : String) (span : Span)
  | keyed (key : String) (value : Phrase) (span : Span)

end

instance : Inhabited Phrase :=
  ⟨.program [] (Span.empty 0)⟩

/-- The key of an entry. -/
def Entry.key : Entry → String
  | .shorthand key _ => key
  | .keyed key _ _ => key

/-- The value that an entry writes out. -/
def Entry.value? : Entry → Option Phrase
  | .shorthand _ _ => none
  | .keyed _ value _ => some value

/-- The bytes an entry covers. -/
def Entry.span : Entry → Span
  | .shorthand _ span => span
  | .keyed _ _ span => span

/-- The forms of phrases. -/
inductive Phrase.Kind where
  | program
  | variableDeclaration
  | functionDeclaration
  | identifier
  | numericLiteral
  | binary
  | assignment
  | objectLiteral
  | call
  | member
deriving DecidableEq

/-- How records and messages name a form. -/
def Phrase.Kind.name : Phrase.Kind → String
  | .program => "Program"
  | .variableDeclaration => "VariableDecl"
  | .functionDeclaration => "FunctionDecl"
  | .identifier => "Identifier"
  | .numericLiteral => "NumericLiteral"
  | .binary => "BinaryExpr"
  | .assignment => "AssignmentExpr"
  | .objectLiteral => "ObjectLiteral"
  | .call => "CallExpr"
  | .member => "MemberExpr"

namespace Phrase

/-- The form of a phrase. -/
def kind : Phrase → Kind
  | .program .. => .program
  | .variableDeclaration .. => .variableDeclaration
  | .functionDeclaration .. => .functionDeclaration
  | .identifier .. => .identifier
  | .numericLiteral .. => .numericLiteral
  | .binary .. => .binary
  | .assignment .. => .assignment
  | .objectLiteral .. => .objectLiteral
  | .call .. => .call
  | .member .. => .member

/-- The bytes a phrase covers. -/
def span : Phrase → Span
  | .program _ span => span
  | .variableDeclaration _ _ _ span => span
  | .functionDeclaration _ _ _ span => span
  | .identifier _ span => span
  | .numericLiteral _ span => span
  | .binary _ _ _ span => span
  | .assignment _ _ span => span
  | .objectLiteral _ span => span
  | .call _ _ span => span
  | .member _ _ _ span => span

/-- A binary expression that covers exactly its operands and what lies between them. -/
def ofOperands (left : Phrase) (operator : Operator) (right : Phrase) : Phrase :=
  .binary left operator right (left.span.merge right.span)

/-- The name that a phrase is, if it is nothing but a name. -/
def name? : Phrase → Option String
  | .identifier name _ => some name
  | _ => none

end Phrase

end NanoScript
