import NanoScript.Phrase.Text
import NanoScript.Proofs.Phrase.Shape
import NanoScript.Proofs.Token.Spelling

/-!
Contract: the words that the written form of a phrase spells.

Owns:
- the words of a phrase, one list for each form of phrase;
- the written form of a statement spells its words.

A number that is not finite is written as a word of letters.
-/

namespace NanoScript

namespace Word

/-- The word that is a single mark. -/
def ofMark (c : Char) : Word :=
  ⟨(Token.Kind.ofMark? c).getD .endOfInput, String.singleton c⟩

def ofName (name : String) : Word :=
  ⟨.identifier, name⟩

def ofOperator (operator : Operator) : Word :=
  ⟨.binaryOperator, operator.symbol⟩

/-- The word that a number is written as. -/
def ofNumber (value : Number) : Word :=
  ⟨if value.isFinite then .number else .identifier, value.text⟩

def letKeyword : Word :=
  ⟨.letKeyword, "let"⟩

def constKeyword : Word :=
  ⟨.constKeyword, "const"⟩

def fnKeyword : Word :=
  ⟨.fnKeyword, "fn"⟩

/-- Lists of words with commas between them. -/
def commaDivided (lists : List (List Word)) : List Word :=
  [ofMark ','].intercalate lists

@[simp] theorem commaDivided_nil : commaDivided [] = [] :=
  rfl

@[simp] theorem commaDivided_singleton (words : List Word) : commaDivided [words] = words :=
  List.intercalate_singleton

@[simp] theorem commaDivided_cons_cons (first second : List Word) (rest : List (List Word)) :
    commaDivided (first :: second :: rest) =
      first ++ ofMark ',' :: commaDivided (second :: rest) := by
  unfold commaDivided
  rw [List.intercalate_cons_cons, List.append_assoc]
  rfl

/-- The first list, and the others with a comma before each. -/
theorem commaDivided_append (first : List Word) (others : List (List Word)) (rest : List Word) :
    commaDivided (first :: others) ++ rest =
      first ++ (others.flatMap (ofMark ',' :: ·) ++ rest) := by
  induction others generalizing first with
  | nil => rw [commaDivided_singleton, List.flatMap_nil, List.nil_append]
  | cons second others inductionHypothesis =>
      rw [commaDivided_cons_cons, List.append_assoc, List.cons_append, inductionHypothesis,
        List.flatMap_cons, List.cons_append, List.cons_append, List.append_assoc]

end Word

open Word

mutual

/-- The words of the written form of a phrase. -/
def Phrase.words : Phrase → List Word
  | .program body _ => (Phrase.wordsOfEach body).flatten
  | .variableDeclaration name (some value) constant _ =>
      (if constant then constKeyword else letKeyword) :: ofName name :: ofMark '=' ::
        (value.words ++ [ofMark ';'])
  | .variableDeclaration name none constant _ =>
      [if constant then constKeyword else letKeyword, ofName name, ofMark ';']
  | .functionDeclaration name parameters body _ =>
      fnKeyword :: ofName name :: ofMark '(' ::
        (commaDivided (parameters.map fun parameter => [ofName parameter]) ++
          ofMark ')' :: ofMark '\x7b' :: ((Phrase.wordsOfEach body).flatten ++ [ofMark '\x7d']))
  | .identifier name _ => [ofName name]
  | .numericLiteral value _ => [ofNumber value]
  | .binary left operator right _ =>
      ofMark '(' :: (left.words ++ ofOperator operator :: (right.words ++ [ofMark ')']))
  | .assignment target value _ =>
      ofMark '(' :: (target.words ++ ofMark '=' :: (value.words ++ [ofMark ')']))
  | .objectLiteral entries _ =>
      ofMark '\x7b' :: (commaDivided (Entry.wordsOfEach entries) ++ [ofMark '\x7d'])
  | .call callee arguments _ =>
      callee.words ++ ofMark '(' :: (commaDivided (Phrase.wordsOfEach arguments) ++ [ofMark ')'])
  | .member object property true _ =>
      object.words ++ ofMark '[' :: (property.words ++ [ofMark ']'])
  | .member object property false _ => object.words ++ ofMark '.' :: property.words

/-- The words of phrases, one by one. -/
def Phrase.wordsOfEach : List Phrase → List (List Word)
  | [] => []
  | phrase :: rest => phrase.words :: Phrase.wordsOfEach rest

/-- The words of an entry. -/
def Entry.words : Entry → List Word
  | .shorthand key _ => [ofName key]
  | .keyed key value _ => ofName key :: ofMark ':' :: value.words

/-- The words of entries, one by one. -/
def Entry.wordsOfEach : List Entry → List (List Word)
  | [] => []
  | entry :: rest => entry.words :: Entry.wordsOfEach rest

end

theorem Phrase.wordsOfEach_eq_map (phrases : List Phrase) :
    Phrase.wordsOfEach phrases = phrases.map words := by
  induction phrases with
  | nil => rfl
  | cons phrase rest inductionHypothesis => simp [Phrase.wordsOfEach, inductionHypothesis]

theorem Entry.wordsOfEach_eq_map (entries : List Entry) :
    Entry.wordsOfEach entries = entries.map words := by
  induction entries with
  | nil => rfl
  | cons entry rest inductionHypothesis => simp [Entry.wordsOfEach, inductionHypothesis]

namespace Phrase

theorem words_program (body : List Phrase) (span : Span) :
    (program body span).words = (body.map words).flatten := by
  rw [words, wordsOfEach_eq_map]

theorem words_functionDeclaration (name : String) (parameters : List String) (body : List Phrase)
    (span : Span) :
    (functionDeclaration name parameters body span).words =
      fnKeyword :: ofName name :: ofMark '(' ::
        (commaDivided (parameters.map fun parameter => [ofName parameter]) ++
          ofMark ')' :: ofMark '\x7b' :: ((body.map words).flatten ++ [ofMark '\x7d'])) := by
  rw [words, wordsOfEach_eq_map]

theorem words_objectLiteral (entries : List Entry) (span : Span) :
    (objectLiteral entries span).words =
      ofMark '\x7b' :: (commaDivided (entries.map Entry.words) ++ [ofMark '\x7d']) := by
  rw [words, Entry.wordsOfEach_eq_map]

theorem words_call (callee : Phrase) (arguments : List Phrase) (span : Span) :
    (call callee arguments span).words =
      callee.words ++ ofMark '(' :: (commaDivided (arguments.map words) ++ [ofMark ')']) := by
  rw [words, wordsOfEach_eq_map]

end Phrase

/-! ## Spelling -/

namespace Spells

open Token

theorem ofMark {c : Char} {text : List Char} {words : List Word}
    (isMark : (Kind.ofMark? c).isSome = true)
    (plain : (!Token.isLayout c && !isLetter c && !c.isDigit) = true) (spells : Spells text words) :
    Spells (c :: text) (Word.ofMark c :: words) := by
  obtain ⟨kind, found⟩ := Option.isSome_iff_exists.1 isMark
  have same : Word.ofMark c = ⟨kind, String.singleton c⟩ := by
    unfold Word.ofMark
    rw [found]
    rfl
  rw [same]
  exact mark found plain spells

theorem ofName {name : String} (isName : IsName name) :
    Spells name.toList [Word.ofName name] := by
  have spells := letters name isName.nonempty (List.all_eq_true.2 isName.areLetters)
  rw [isName.noKeyword] at spells
  exact spells

theorem ofNumber {value : Number} (nonnegative : value.isNegative = false)
    (isNumber : value.isNotANumber = false) :
    Spells value.text.toList [Word.ofNumber value] := by
  unfold Word.ofNumber
  cases finite : value.isFinite with
  | true =>
      obtain ⟨figures, same, isPlain, _⟩ := Number.exists_plain_text nonnegative finite
      rw [same, String.toList_ofList]
      exact numeral isPlain
  | false =>
      have infinite : value.isInfinite = true := by
        have notBelow : ¬ value.rank < Number.infinityRank := of_decide_eq_false finite
        have notAbove : ¬ Number.infinityRank < value.rank := of_decide_eq_false isNumber
        exact decide_eq_true (by omega)
      have same : value.text = "inf" := by
        unfold Number.text
        rw [isNumber, nonnegative, infinite]
        rfl
      rw [same]
      exact letters "inf" (by decide) (by decide)

theorem ofOperator (operator : Operator) {text : List Char} {words : List Word}
    (spells : Spells text words) :
    Spells (operator.symbol.toList ++ text) (Word.ofOperator operator :: words) := by
  cases operator <;> exact mark rfl (by decide) spells

/-- Texts with a comma and a blank between them. -/
theorem commaSeparated {α : Type} {text : α → String} {words : α → List Word} {items : List α}
    (each : ∀ item ∈ items, Spells (text item).toList (words item)) :
    Spells (NanoScript.commaSeparated (items.map text)).toList
      (commaDivided (items.map words)) := by
  unfold NanoScript.commaSeparated
  induction items with
  | nil => exact nil
  | cons first rest inductionHypothesis =>
      have spelled :=
        inductionHypothesis fun item member => each item (List.mem_cons_of_mem _ member)
      cases rest with
      | nil =>
          rw [List.map_singleton, List.map_singleton, String.intercalate_singleton,
            commaDivided_singleton]
          exact each first List.mem_cons_self
      | cons second rest =>
          rw [List.map_cons, List.map_cons, List.map_cons, List.map_cons,
            String.intercalate_cons_cons, commaDivided_cons_cons, String.append_assoc,
            String.toList_append, String.toList_append]
          exact append (each first List.mem_cons_self)
            (ofMark (c := ',') rfl (by decide) (layout (by decide) spelled))
            (.cons (by decide) _)

/-- Entries in braces: a blank before each, and a comma between them. -/
theorem braced {α : Type} {text : α → String} {words : α → List Word} {items : List α}
    (each : ∀ item ∈ items, Spells (text item).toList (words item)) :
    Spells (NanoScript.braced (items.map text)).toList
      (Word.ofMark '\x7b' :: (commaDivided (items.map words) ++ [Word.ofMark '\x7d'])) := by
  have inner : Spells (",".intercalate ((items.map text).map (" " ++ ·))).toList
      (commaDivided (items.map words)) := by
    induction items with
    | nil => exact nil
    | cons first rest inductionHypothesis =>
        have spelled :=
          inductionHypothesis fun item member => each item (List.mem_cons_of_mem _ member)
        have head : Spells (' ' :: (text first).toList) (words first) :=
          layout (by decide) (each first List.mem_cons_self)
        cases rest with
        | nil =>
            rw [List.map_singleton, List.map_singleton, List.map_singleton,
              String.intercalate_singleton, commaDivided_singleton, String.toList_append]
            exact head
        | cons second rest =>
            rw [List.map_cons, List.map_cons, List.map_cons, List.map_cons, List.map_cons,
              List.map_cons, String.intercalate_cons_cons, commaDivided_cons_cons,
              String.append_assoc, String.toList_append, String.toList_append,
              String.toList_append]
            exact append head (ofMark (c := ',') rfl (by decide) spelled) (.cons (by decide) _)
  unfold NanoScript.braced
  rw [String.toList_append, String.toList_append, List.append_assoc]
  change Spells ('\x7b' :: (_ ++ [' ', '\x7d'])) _
  exact ofMark (c := '\x7b') rfl (by decide)
    (append inner (layout (by decide) (ofMark (c := '\x7d') rfl (by decide) nil))
      (.cons (by decide) _))

/-- Statements on one line, a blank before each. -/
theorem blankPreceded {α : Type} {text : α → String} {words : α → List Word} {items : List α}
    (each : ∀ item ∈ items, Spells (text item).toList (words item)) :
    Spells (NanoScript.blankPreceded (items.map text)).toList (items.map words).flatten := by
  unfold NanoScript.blankPreceded
  rw [String.toList_join, List.flatMap_map, List.flatMap_map]
  induction items with
  | nil => exact nil
  | cons first rest inductionHypothesis =>
      have spelled :=
        inductionHypothesis fun item member => each item (List.mem_cons_of_mem _ member)
      rw [List.flatMap_cons, List.map_cons, List.flatten_cons, String.toList_append]
      have divides : Divides (rest.flatMap fun item => (" " ++ text item).toList) := by
        cases rest with
        | nil => exact .nil
        | cons second rest =>
            rw [List.flatMap_cons, String.toList_append]
            exact .cons (c := ' ') (by decide) _
      exact layout (c := ' ') (by decide) (append (each first List.mem_cons_self) spelled divides)

/-- Statements on lines of their own. -/
theorem lines {α : Type} {text : α → String} {words : α → List Word} {items : List α}
    (each : ∀ item ∈ items, Spells (text item).toList (words item)) :
    Spells ("\n".intercalate (items.map text)).toList (items.map words).flatten := by
  induction items with
  | nil => exact nil
  | cons first rest inductionHypothesis =>
      have spelled :=
        inductionHypothesis fun item member => each item (List.mem_cons_of_mem _ member)
      cases rest with
      | nil =>
          rw [List.map_singleton, List.map_singleton, String.intercalate_singleton,
            List.flatten_singleton]
          exact each first List.mem_cons_self
      | cons second rest =>
          rw [List.map_cons, List.map_cons, List.map_cons, List.flatten_cons,
            String.intercalate_cons_cons, String.append_assoc, String.toList_append,
            String.toList_append]
          exact append (each first List.mem_cons_self) (layout (c := '\n') (by decide) spelled)
            (.cons (c := '\n') (by decide) _)

end Spells

open Spells

/-- The written form of an expression spells its words. -/
theorem Phrase.IsExpression.spells {phrase : Phrase} (shape : phrase.IsExpression) :
    Spells phrase.text.toList phrase.words := by
  induction shape with
  | identifier isName => exact ofName isName
  | numericLiteral nonnegative isNumber => exact ofNumber nonnegative isNumber
  | @binary left right operator span _ _ leftSpells rightSpells =>
      simp only [Phrase.text, String.toList_append, List.append_assoc]
      change Spells ('(' :: (_ ++ ' ' :: (operator.symbol.toList ++ ' ' :: (_ ++ [')'])))) _
      have closed := append rightSpells (ofMark (c := ')') rfl (by decide) nil)
        (.cons (by decide) _)
      have tail := ofOperator operator (layout (c := ' ') (by decide) closed)
      exact ofMark rfl (by decide)
        (append leftSpells (layout (c := ' ') (by decide) tail) (.cons (by decide) _))
  | assignment _ _ targetSpells valueSpells =>
      simp only [Phrase.text, String.toList_append, List.append_assoc]
      change Spells ('(' :: (_ ++ ' ' :: '=' :: ' ' :: (_ ++ [')']))) _
      have closed := append valueSpells (ofMark (c := ')') rfl (by decide) nil)
        (.cons (by decide) _)
      have tail := ofMark (c := '=') rfl (by decide) (layout (c := ' ') (by decide) closed)
      exact ofMark rfl (by decide)
        (append targetSpells (layout (c := ' ') (by decide) tail) (.cons (by decide) _))
  | @objectLiteral entries span areNames _ valuesSpell =>
      rw [Phrase.text, Phrase.words_objectLiteral, Entry.texts_eq_map]
      apply Spells.braced
      intro entry member
      cases entry with
      | shorthand key span => exact ofName (areNames _ member)
      | keyed key value span =>
          rw [Entry.text, Entry.words, String.append_assoc, String.toList_append,
            String.toList_append]
          have spelled := valuesSpell _ member value rfl
          exact append (ofName (areNames _ member))
            (ofMark (c := ':') rfl (by decide) (layout (c := ' ') (by decide) spelled))
            (.cons (by decide) _)
  | @call callee arguments span _ _ calleeSpells argumentsSpell =>
      simp only [Phrase.text, Phrase.words_call, Phrase.texts_eq_map, String.toList_append,
        List.append_assoc]
      change Spells (_ ++ '(' :: (_ ++ [')'])) _
      have closed := append (Spells.commaSeparated argumentsSpell)
        (ofMark (c := ')') rfl (by decide) nil) (.cons (by decide) _)
      exact append calleeSpells (ofMark (c := '(') rfl (by decide) closed) (.cons (by decide) _)
  | @named object name nameSpan span _ isName objectSpells =>
      simp only [Phrase.text, Phrase.words, String.toList_append, List.append_assoc]
      change Spells (_ ++ '.' :: name.toList) _
      obtain ⟨first, rest, split⟩ := List.exists_cons_of_ne_nil isName.nonempty
      have divides : Divides ('.' :: name.toList) := by
        rw [split]
        exact .dot (isName.areLetters first (by rw [split]; exact List.mem_cons_self)) rest
      exact append objectSpells (ofMark rfl (by decide) (ofName isName)) divides
  | computed _ _ objectSpells propertySpells =>
      simp only [Phrase.text, Phrase.words, String.toList_append, List.append_assoc]
      change Spells (_ ++ '[' :: (_ ++ [']'])) _
      have closed := append propertySpells (ofMark (c := ']') rfl (by decide) nil)
        (.cons (by decide) _)
      exact append objectSpells (ofMark rfl (by decide) closed) (.cons (by decide) _)

/-- A keyword and what follows it behind a blank. -/
theorem Spells.keyword (keyword : String) {text : List Char} {words : List Word}
    (nonempty : keyword.toList ≠ []) (areLetters : keyword.toList.all Token.isLetter = true)
    (spells : Spells text words) :
    Spells (keyword.toList ++ ' ' :: text) (⟨Token.Kind.ofWord keyword, keyword⟩ :: words) :=
  append (letters keyword nonempty areLetters) (layout (by decide) spells) (.cons (by decide) _)

theorem Spells.declarationKeyword (constant : Bool) {text : List Char} {words : List Word}
    (spells : Spells text words) :
    Spells ((if constant then "const " else "let ").toList ++ text)
      ((if constant then constKeyword else letKeyword) :: words) := by
  cases constant with
  | false => exact keyword "let" (by decide) (by decide) spells
  | true => exact keyword "const" (by decide) (by decide) spells

/-- The written form of a statement spells its words. -/
theorem Phrase.IsStatement.spells {phrase : Phrase} (shape : phrase.IsStatement) :
    Spells phrase.text.toList phrase.words := by
  induction shape with
  | @declaration name span isName =>
      simp only [Phrase.text, String.toList_append, List.append_assoc]
      exact declarationKeyword false (append (ofName isName)
        (ofMark (c := ';') rfl (by decide) nil) (.cons (by decide) _))
  | @initialized name value constant span isName isExpression =>
      simp only [Phrase.text, String.toList_append, List.append_assoc]
      have closed := append isExpression.spells (ofMark (c := ';') rfl (by decide) nil)
        (.cons (by decide) _)
      have tail := ofMark (c := '=') rfl (by decide) (layout (c := ' ') (by decide) closed)
      exact declarationKeyword constant
        (append (ofName isName) (layout (c := ' ') (by decide) tail) (.cons (by decide) _))
  | @function name parameters body span isName areNames _ bodySpells =>
      simp only [Phrase.text, Phrase.words_functionDeclaration, Phrase.texts_eq_map,
        String.toList_append, List.append_assoc]
      have names : Spells (NanoScript.commaSeparated parameters).toList
          (commaDivided (parameters.map fun parameter => [Word.ofName parameter])) := by
        have each := Spells.commaSeparated fun parameter member =>
          (ofName (areNames parameter member) : Spells (id parameter).toList _)
        rw [List.map_id] at each
        exact each
      have ending := layout (c := ' ') (by decide) (ofMark (c := '\x7d') rfl (by decide) nil)
      have block := ofMark (c := '\x7b') rfl (by decide)
        (append (Spells.blankPreceded bodySpells) ending (.cons (by decide) _))
      have tail := ofMark (c := ')') rfl (by decide) (layout (c := ' ') (by decide) block)
      have list := ofMark (c := '(') rfl (by decide) (append names tail (.cons (by decide) _))
      exact keyword "fn" (by decide) (by decide)
        (append (ofName isName) list (.cons (by decide) _))
  | expression isExpression => exact isExpression.spells

/-- The written form of a program of statements spells its words. -/
theorem Phrase.spells_program {body : List Phrase}
    (statements : ∀ phrase ∈ body, phrase.IsStatement) (span : Span) :
    Spells (Phrase.program body span).text.toList (Phrase.program body span).words := by
  rw [Phrase.text, Phrase.words_program, Phrase.texts_eq_map]
  exact lines fun phrase member => (statements phrase member).spells

end NanoScript
