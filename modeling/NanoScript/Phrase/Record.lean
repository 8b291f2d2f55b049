import NanoScript.Phrase.Basic
import NanoScript.Record

/-!
Contract: phrases described as structured records.

Owns the description: the form of a phrase under `kind`, its parts under their names, and the
bytes it covers under `span`.  A part that a phrase leaves out is the absent value.
-/

namespace NanoScript

/-- A range as a record of its two ends. -/
def Span.record (span : Span) : Record :=
  .ofFields [("start", .natural span.start), ("end", .natural span.stop)]

/-- The record of a form with its parts. -/
def Record.ofPhrase (kind : Phrase.Kind) (parts : List (String × Record)) (span : Span) : Record :=
  .ofFields (("kind", .text kind.name) :: parts ++ [("span", span.record)])

/-- The record of an entry with its value, which may be absent. -/
def Record.ofEntry (key : String) (value : Record) (span : Span) : Record :=
  .ofFields
    [("kind", .text "PropertyLiteral"), ("key", .text key), ("value", value),
      ("span", span.record)]

mutual

/-- The record of a phrase. -/
def Phrase.record : Phrase → Record
  | .program body span => .ofPhrase .program [("body", .list (Phrase.records body))] span
  | .variableDeclaration name (some value) constant span =>
      .ofPhrase .variableDeclaration
        [("identifier", .text name), ("value", value.record), ("constant", .boolean constant)] span
  | .variableDeclaration name none constant span =>
      .ofPhrase .variableDeclaration
        [("identifier", .text name), ("value", .absent), ("constant", .boolean constant)] span
  | .functionDeclaration name parameters body span =>
      .ofPhrase .functionDeclaration
        [("name", .text name), ("parameters", .list (parameters.map .text)),
          ("body", .list (Phrase.records body))] span
  | .identifier name span => .ofPhrase .identifier [("symbol", .text name)] span
  | .numericLiteral value span => .ofPhrase .numericLiteral [("value", .ofNumber value)] span
  | .binary left operator right span =>
      .ofPhrase .binary
        [("left", left.record), ("right", right.record), ("operator", .text operator.symbol)] span
  | .assignment target value span =>
      .ofPhrase .assignment [("assignee", target.record), ("value", value.record)] span
  | .objectLiteral entries span =>
      .ofPhrase .objectLiteral [("properties", .list (Entry.records entries))] span
  | .call callee arguments span =>
      .ofPhrase .call
        [("caller", callee.record), ("arguments", .list (Phrase.records arguments))] span
  | .member object property computed span =>
      .ofPhrase .member
        [("object", object.record), ("property", property.record),
          ("computed", .boolean computed)] span

/-- The records of phrases, one by one. -/
def Phrase.records : List Phrase → List Record
  | [] => []
  | phrase :: rest => phrase.record :: Phrase.records rest

/-- The record of an entry. -/
def Entry.record : Entry → Record
  | .shorthand key span => .ofEntry key .absent span
  | .keyed key value span => .ofEntry key value.record span

/-- The records of entries, one by one. -/
def Entry.records : List Entry → List Record
  | [] => []
  | entry :: rest => entry.record :: Entry.records rest

end

end NanoScript
