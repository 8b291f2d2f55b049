import NanoScript.Number.Text
import NanoScript.Phrase.Basic

/-!
Contract: phrases written as program text.

Owns the written form: statements on lines of their own in a program and on one line in a function
body, every binary expression and assignment in parentheses, and numbers in their plain form.  An
expression that is a statement gets no semicolon.
-/

namespace NanoScript

/-- Texts with a comma and a blank between them. -/
def commaSeparated (texts : List String) : String :=
  ", ".intercalate texts

/-- Texts with a blank before each. -/
def blankPreceded (texts : List String) : String :=
  String.join (texts.map (" " ++ ·))

/-- Braces around entries; a comma divides them and a blank precedes each, and the closing
brace. -/
def braced (entries : List String) : String :=
  "\x7b" ++ ",".intercalate (entries.map (" " ++ ·)) ++ " \x7d"

mutual

/-- The written form of a phrase. -/
def Phrase.text : Phrase → String
  | .program body _ => "\n".intercalate (Phrase.texts body)
  | .variableDeclaration name (some value) constant _ =>
      (if constant then "const " else "let ") ++ name ++ " = " ++ value.text ++ ";"
  | .variableDeclaration name none constant _ =>
      (if constant then "const " else "let ") ++ name ++ ";"
  | .functionDeclaration name parameters body _ =>
      "fn " ++ name ++ "(" ++ commaSeparated parameters ++ ") \x7b" ++
        blankPreceded (Phrase.texts body) ++ " \x7d"
  | .identifier name _ => name
  | .numericLiteral value _ => value.text
  | .binary left operator right _ =>
      "(" ++ left.text ++ " " ++ operator.symbol ++ " " ++ right.text ++ ")"
  | .assignment target value _ => "(" ++ target.text ++ " = " ++ value.text ++ ")"
  | .objectLiteral entries _ => braced (Entry.texts entries)
  | .call callee arguments _ => callee.text ++ "(" ++ commaSeparated (Phrase.texts arguments) ++ ")"
  | .member object property true _ => object.text ++ "[" ++ property.text ++ "]"
  | .member object property false _ => object.text ++ "." ++ property.text

/-- The written forms of phrases, one by one. -/
def Phrase.texts : List Phrase → List String
  | [] => []
  | phrase :: rest => phrase.text :: Phrase.texts rest

/-- The written form of an entry. -/
def Entry.text : Entry → String
  | .shorthand key _ => key
  | .keyed key value _ => key ++ ": " ++ value.text

/-- The written forms of entries, one by one. -/
def Entry.texts : List Entry → List String
  | [] => []
  | entry :: rest => entry.text :: Entry.texts rest

end

theorem Phrase.texts_eq_map (phrases : List Phrase) : Phrase.texts phrases = phrases.map text := by
  induction phrases with
  | nil => rfl
  | cons phrase rest inductionHypothesis => simp [Phrase.texts, inductionHypothesis]

theorem Entry.texts_eq_map (entries : List Entry) : Entry.texts entries = entries.map text := by
  induction entries with
  | nil => rfl
  | cons entry rest inductionHypothesis => simp [Entry.texts, inductionHypothesis]

end NanoScript
