import NanoScript.Proofs.Grammar.Unambiguous
import NanoScript.Proofs.Reprinting.Recovery

/-!
Contract: every expression is recovered from its words.

Owns:
- the recovery of whole expressions, of the two operands of a parenthesized expression, and of the
  lists in calls and object literals;
- the recovery of all expressions, by induction on their shape.
-/

namespace NanoScript.Grammar

open Reading Token Word

section

variable {phrase left right target value : Phrase} {operator : Operator} {after : List Token}
  {rest : List Word}

/-! ## Whole expressions -/

theorem ObjectLiteral.recovered (recovered : Recovered phrase) (whole : ObjectLiteral)
    (same : words (whole.tokens ++ after) = phrase.words ++ rest)
    (stops : continuesSum (nextKind after) = false)
    (quiet : continuesSum (firstKind rest) = false) :
    phrase.WellPlaced ∧ whole.phrase.bare = phrase.shown ∧ words after = rest := by
  cases whole with
  | literal opening entries closing =>
      rcases recovered.inLiteral opening entries closing after rest same with
        ⟨_, placed, shown, remains⟩ | ⟨_, continues⟩
      · exact ⟨placed, shown, remains⟩
      · rw [continuesCall_of_continuesSum stops] at continues
        cases continues
  | sum whole =>
      obtain ⟨⟨placed, _⟩, shown, remains⟩ :=
        whole.recovered_alone recovered.inCall same (stopsSum_of_continuesSum stops) quiet
      exact ⟨placed, shown, remains⟩

theorem ObjectLiteral.recovered_binary (leftRecovered : Recovered left)
    (rightRecovered : Recovered right) (whole : ObjectLiteral)
    (same : words (whole.tokens ++ after) =
      left.words ++ ofOperator operator :: (right.words ++ rest))
    (stops : continuesSum (nextKind after) = false)
    (quiet : continuesSum (firstKind rest) = false) :
    (left.WellPlaced ∧ left.kind ≠ .objectLiteral) ∧
      (right.WellPlaced ∧ right.kind ≠ .objectLiteral) ∧
      whole.phrase.bare = .binary left.shown operator right.shown (Span.empty 0) ∧
      words after = rest := by
  cases whole with
  | literal opening entries closing =>
      rcases leftRecovered.inLiteral opening entries closing after _ same with
        ⟨_, _, _, remains⟩ | ⟨_, continues⟩
      · rw [nextKind_eq_firstKind, remains] at stops
        cases stops
      · rw [continuesCall_of_continuesSum stops] at continues
        cases continues
  | sum whole =>
      exact whole.recovered_binary leftRecovered.inCall rightRecovered.inCall same
        (stopsSum_of_continuesSum stops) quiet

theorem continuesSum_terminal {kind : Token.Kind} (terminal : Terminal kind) (tokens : List Token)
    (stops : continuesSum kind = false) :
    continuesSum (nextKind (terminal.token :: tokens)) = false := by
  rw [nextKind_cons, terminal.ofKind]
  exact stops

theorem Expression.recovered (recovered : Recovered phrase) (expression : Expression)
    (same : words (expression.tokens ++ after) = phrase.words ++ rest)
    (ends : endsExpression (nextKind after) = true)
    (restEnds : endsExpression (firstKind rest) = true) :
    phrase.WellPlaced ∧ expression.phrase.bare = phrase.shown ∧ words after = rest := by
  cases expression with
  | plain whole =>
      exact whole.recovered recovered same (continuesSum_of_endsExpression ends)
        (continuesSum_of_endsExpression restEnds)
  | assignment target equals value =>
      rw [Expression.tokens, List.append_assoc] at same
      obtain ⟨_, _, remains⟩ := target.recovered recovered same
        (continuesSum_terminal equals _ rfl) (continuesSum_of_endsExpression restEnds)
      rw [← remains] at restEnds
      change endsExpression equals.token.kind = true at restEnds
      rw [equals.ofKind] at restEnds
      cases restEnds

/-- The tokens between the parentheses of a binary expression stand for that expression. -/
theorem Expression.recovered_binary (leftRecovered : Recovered left)
    (rightRecovered : Recovered right) (expression : Expression) (closing : Terminal .closeParen)
    (same : words (expression.tokens ++ closing.token :: after) =
      left.words ++ ofOperator operator :: (right.words ++ ofMark ')' :: rest)) :
    (left.WellPlaced ∧ left.kind ≠ .objectLiteral) ∧
      (right.WellPlaced ∧ right.kind ≠ .objectLiteral) ∧
      expression.phrase.bare = .binary left.shown operator right.shown (Span.empty 0) ∧
      words after = rest := by
  cases expression with
  | plain whole =>
      obtain ⟨leftPlaced, rightPlaced, shown, remains⟩ :=
        whole.recovered_binary leftRecovered rightRecovered same
          (continuesSum_terminal closing _ rfl) rfl
      exact ⟨leftPlaced, rightPlaced, shown, (List.cons.inj remains).2⟩
  | assignment target equals value =>
      rw [Expression.tokens, List.append_assoc] at same
      obtain ⟨_, _, _, remains⟩ := target.recovered_binary leftRecovered rightRecovered same
        (continuesSum_terminal equals _ rfl) rfl
      have kinds : Token.Kind.equals = .closeParen := equals.kind_of_word (List.cons.inj remains).1
      cases kinds

/-- The tokens between the parentheses of an assignment stand for that assignment. -/
theorem Expression.recovered_assignment (targetRecovered : Recovered target)
    (valueRecovered : Recovered value) (expression : Expression) (closing : Terminal .closeParen)
    (same : words (expression.tokens ++ closing.token :: after) =
      target.words ++ ofMark '=' :: (value.words ++ ofMark ')' :: rest)) :
    target.WellPlaced ∧ value.WellPlaced ∧
      expression.phrase.bare = .assignment target.shown value.shown (Span.empty 0) ∧
      words after = rest := by
  cases expression with
  | plain whole =>
      obtain ⟨_, _, remains⟩ := whole.recovered targetRecovered same
        (continuesSum_terminal closing _ rfl) rfl
      have kinds : Token.Kind.closeParen = .equals := closing.kind_of_word (List.cons.inj remains).1
      cases kinds
  | assignment derived equals assigned =>
      rw [Expression.tokens, List.append_assoc] at same
      obtain ⟨targetPlaced, targetShown, remains⟩ := derived.recovered targetRecovered same
        (continuesSum_terminal equals _ rfl) rfl
      have closes : endsExpression (nextKind (closing.token :: after)) = true := by
        rw [nextKind_cons, closing.ofKind]
        rfl
      obtain ⟨valuePlaced, valueShown, remains⟩ :=
        assigned.recovered valueRecovered (List.cons.inj remains).2 closes rfl
      refine ⟨targetPlaced, valuePlaced, ?_, (List.cons.inj remains).2⟩
      rw [← targetShown, ← valueShown]
      rfl

/-! ## Lists -/

theorem endsExpression_commas (lists : List (List Word)) {closing : Word} (rest : List Word)
    (closes : endsExpression closing.kind = true) :
    endsExpression (firstKind (lists.flatMap (ofMark ',' :: ·) ++ closing :: rest)) = true := by
  cases lists with
  | nil => exact closes
  | cons first others => rfl

theorem ArgumentsTail.recovered (tail : ArgumentsTail) {phrases : List Phrase}
    (recovered : ∀ argument ∈ phrases, Recovered argument) (closing : Terminal .closeParen)
    (same : words (tail.tokens ++ closing.token :: after) =
      (phrases.map Phrase.words).flatMap (ofMark ',' :: ·) ++ ofMark ')' :: rest) :
    (∀ argument ∈ phrases, argument.WellPlaced) ∧
      tail.phrases.map Phrase.bare = phrases.map Phrase.shown ∧ words after = rest := by
  match tail, phrases with
  | .done, [] =>
      refine ⟨?_, rfl, (List.cons.inj same).2⟩
      intro argument member
      cases member
  | .done, phrase :: others =>
      have kinds : Token.Kind.closeParen = .comma := closing.kind_of_word (List.cons.inj same).1
      cases kinds
  | .more comma argument tail, [] =>
      have kinds : Token.Kind.comma = .closeParen := comma.kind_of_word (List.cons.inj same).1
      cases kinds
  | .more comma argument tail, phrase :: others =>
      have closes : nextKind (closing.token :: after) = .closeParen := closing.ofKind
      rw [List.map_cons, List.flatMap_cons, ArgumentsTail.tokens, List.cons_append,
        List.append_assoc, List.append_assoc] at same
      obtain ⟨placed, shown, remains⟩ := argument.recovered (recovered phrase List.mem_cons_self)
        (List.cons.inj same).2 (tail.endsExpression_nextKind closes)
        (endsExpression_commas _ rest rfl)
      obtain ⟨othersPlaced, othersShown, remains⟩ := tail.recovered
        (fun argument member => recovered argument (List.mem_cons_of_mem phrase member)) closing
        remains
      refine ⟨List.forall_mem_cons.2 ⟨placed, othersPlaced⟩, ?_, remains⟩
      rw [ArgumentsTail.phrases, List.map_cons, List.map_cons, shown, othersShown]
termination_by structural tail

/-- A list of arguments whose tokens begin with the words of a list of expressions in parentheses is
that list. -/
theorem ArgumentList.recovered (list : ArgumentList) {phrases : List Phrase}
    (shapes : ∀ argument ∈ phrases, argument.IsExpression)
    (recovered : ∀ argument ∈ phrases, Recovered argument)
    (same : words (list.tokens ++ after) =
      ofMark '(' :: (commaDivided (phrases.map Phrase.words) ++ ofMark ')' :: rest)) :
    (∀ argument ∈ phrases, argument.WellPlaced) ∧
      list.phrases.map Phrase.bare = phrases.map Phrase.shown ∧ words after = rest := by
  obtain ⟨opening, arguments, closing⟩ := list
  rw [ArgumentList.tokens, List.cons_append, List.append_assoc] at same
  have same : words (arguments.tokens ++ closing.token :: after) =
    commaDivided (phrases.map Phrase.words) ++ ofMark ')' :: rest := (List.cons.inj same).2
  have closes : nextKind (closing.token :: after) = .closeParen := closing.ofKind
  cases arguments with
  | none =>
      cases phrases with
      | nil =>
          refine ⟨?_, rfl, (List.cons.inj same).2⟩
          intro argument member
          cases member
      | cons phrase others =>
          rw [List.map_cons, commaDivided_append] at same
          have starts := (shapes phrase List.mem_cons_self).startsExpression_append
            ((others.map Phrase.words).flatMap (ofMark ',' :: ·) ++ ofMark ')' :: rest)
          rw [← same, ← nextKind_eq_firstKind] at starts
          change startsExpression closing.token.kind = true at starts
          rw [closing.ofKind] at starts
          cases starts
  | some first tail =>
      rw [Arguments.tokens, List.append_assoc] at same
      cases phrases with
      | nil =>
          have starts := first.starts (tail.tokens ++ closing.token :: after)
          rw [nextKind_eq_firstKind, same] at starts
          cases starts
      | cons phrase others =>
          rw [List.map_cons, commaDivided_append] at same
          obtain ⟨placed, shown, remains⟩ := first.recovered
            (recovered phrase List.mem_cons_self) same (tail.endsExpression_nextKind closes)
            (endsExpression_commas _ rest rfl)
          obtain ⟨othersPlaced, othersShown, remains⟩ := tail.recovered
            (fun argument member => recovered argument (List.mem_cons_of_mem phrase member)) closing
            remains
          refine ⟨List.forall_mem_cons.2 ⟨placed, othersPlaced⟩, ?_, remains⟩
          rw [ArgumentList.phrases, Arguments.phrases, List.map_cons, List.map_cons, shown,
            othersShown]

theorem Entry.recovered (derivation : Entry) {entry : NanoScript.Entry}
    (recovered : ∀ value, entry.value? = some value → Recovered value)
    (same : words (derivation.tokens ++ after) = entry.words ++ rest)
    (ends : endsEntry (nextKind after) = true) (restEnds : endsEntry (firstKind rest) = true) :
    (∀ value, entry.value? = some value → value.WellPlaced) ∧
      derivation.phrase.bare = entry.shown ∧ words after = rest := by
  cases derivation with
  | shorthand key =>
      cases entry with
      | shorthand name span =>
          obtain ⟨keySame, remains⟩ := List.cons.inj same
          refine ⟨(by simp [NanoScript.Entry.value?]), ?_, remains⟩
          have text : key.token.text = name := congrArg Word.text keySame
          rw [← text]
          rfl
      | keyed name value span =>
          have remains : words after = ofMark ':' :: (value.words ++ rest) := (List.cons.inj same).2
          rw [nextKind_eq_firstKind, remains] at ends
          cases ends
  | keyed key colon value =>
      cases entry with
      | shorthand name span =>
          have remains : words (colon.token :: (value.tokens ++ after)) = rest :=
            (List.cons.inj same).2
          rw [← remains] at restEnds
          change endsEntry colon.token.kind = true at restEnds
          rw [colon.ofKind] at restEnds
          cases restEnds
      | keyed name whole span =>
          obtain ⟨keySame, remains⟩ := List.cons.inj same
          obtain ⟨placed, shown, remains⟩ := value.recovered (recovered whole rfl)
            (List.cons.inj remains).2 (endsExpression_of_endsEntry ends)
            (endsExpression_of_endsEntry restEnds)
          refine ⟨?_, ?_, remains⟩
          · intro other isValue
            cases isValue
            exact placed
          · have text : key.token.text = name := congrArg Word.text keySame
            rw [← text]
            exact congrArg (NanoScript.Entry.keyed key.token.text · (Span.empty 0)) shown

theorem firstKind_entry (entry : NanoScript.Entry) (rest : List Word) :
    firstKind (entry.words ++ rest) = .identifier := by
  cases entry <;> rfl

theorem endsEntry_commas (lists : List (List Word)) (rest : List Word) :
    endsEntry (firstKind (lists.flatMap (ofMark ',' :: ·) ++ ofMark '\x7d' :: rest)) = true := by
  cases lists <;> rfl

/-- Entries whose tokens begin with the words of a list of entries up to its brace are that list. -/
theorem Entries.recovered (derivation : Entries) {entries : List NanoScript.Entry}
    (recovered : ∀ entry ∈ entries, ∀ value, entry.value? = some value → Recovered value)
    (closing : Terminal .closeBrace)
    (same : words (derivation.tokens ++ closing.token :: after) =
      commaDivided (entries.map NanoScript.Entry.words) ++ ofMark '\x7d' :: rest) :
    (∀ entry ∈ entries, ∀ value, entry.value? = some value → value.WellPlaced) ∧
      derivation.phrases.map NanoScript.Entry.bare = entries.map NanoScript.Entry.shown ∧
      words after = rest := by
  have closes : endsEntry (nextKind (closing.token :: after)) = true :=
    endsEntry_of_closeBrace closing.ofKind
  match derivation, entries with
  | .none, [] =>
      refine ⟨?_, rfl, (List.cons.inj same).2⟩
      intro entry member
      cases member
  | .none, entry :: others =>
      rw [List.map_cons, commaDivided_append] at same
      have kinds := congrArg firstKind same
      rw [firstKind_entry] at kinds
      change closing.token.kind = _ at kinds
      rw [closing.ofKind] at kinds
      cases kinds
  | .last derived, [] =>
      have starts := derived.starts (closing.token :: after)
      rw [Entries.tokens] at same
      rw [nextKind_eq_firstKind, same] at starts
      cases starts
  | .last derived, entry :: others =>
      rw [List.map_cons, commaDivided_append] at same
      obtain ⟨placed, shown, remains⟩ := derived.recovered
        (recovered entry List.mem_cons_self) same closes (endsEntry_commas _ rest)
      cases others with
      | nil =>
          refine ⟨List.forall_mem_singleton.2 placed, ?_, (List.cons.inj remains).2⟩
          exact congrArg (· :: []) shown
      | cons second others =>
          have kinds : Token.Kind.closeBrace = .comma :=
            closing.kind_of_word (List.cons.inj remains).1
          cases kinds
  | .more derived comma tail, [] =>
      have starts := derived.starts (comma.token :: tail.tokens ++ closing.token :: after)
      rw [Entries.tokens, List.append_assoc] at same
      rw [nextKind_eq_firstKind, same] at starts
      cases starts
  | .more derived comma tail, entry :: others =>
      rw [List.map_cons, commaDivided_append, Entries.tokens, List.append_assoc] at same
      obtain ⟨placed, shown, remains⟩ := derived.recovered
        (recovered entry List.mem_cons_self) same (endsEntry_comma comma _)
        (endsEntry_commas _ rest)
      cases others with
      | nil =>
          have kinds : Token.Kind.comma = .closeBrace :=
            comma.kind_of_word (List.cons.inj remains).1
          cases kinds
      | cons second others =>
          rw [List.map_cons, List.flatMap_cons, List.append_assoc] at remains
          have remains : words (tail.tokens ++ closing.token :: after) = second.words ++
              ((others.map NanoScript.Entry.words).flatMap (ofMark ',' :: ·) ++
                ofMark '\x7d' :: rest) := (List.cons.inj remains).2
          rw [← commaDivided_append, ← List.map_cons] at remains
          obtain ⟨othersPlaced, othersShown, remains⟩ := tail.recovered
            (fun entry member => recovered entry (List.mem_cons_of_mem _ member)) closing remains
          refine ⟨List.forall_mem_cons.2 ⟨placed, othersPlaced⟩, ?_, remains⟩
          rw [Entries.phrases, List.map_cons, List.map_cons, shown, othersShown]
termination_by structural derivation

/-! ## All expressions -/

theorem ObjectLiteral.tokens_literal_append (opening : Terminal .openBrace) (entries : Entries)
    (closing : Terminal .closeBrace) (after : List Token) :
    (ObjectLiteral.literal opening entries closing).tokens ++ after =
      opening.token :: (entries.tokens ++ closing.token :: after) := by
  rw [ObjectLiteral.tokens, List.cons_append, List.append_assoc]
  rfl

/-- A phrase whose words start otherwise than with a brace cannot begin an object literal. -/
theorem recoveredInLiteral_of_firstKind {first : Word} {others : List Word}
    (start : phrase.words = first :: others) (notBrace : first.kind ≠ .openBrace) :
    RecoveredInLiteral phrase := by
  intro opening entries closing after rest same
  rw [start, ObjectLiteral.tokens_literal_append] at same
  exact absurd (opening.kind_of_word (List.cons.inj same).1).symm notBrace

/-- A phrase that begins with another one and a token that continues it is not an object literal. -/
theorem recoveredInLiteral_of_object {object : Phrase} (recovered : RecoveredInLiteral object)
    {first : Word} {others : List Word} (start : phrase.words = object.words ++ first :: others)
    (continues : continuesCall first.kind = true) (notLiteral : phrase.kind ≠ .objectLiteral) :
    RecoveredInLiteral phrase := by
  intro opening entries closing after rest same
  rw [start, List.append_assoc] at same
  refine .inr ⟨notLiteral, ?_⟩
  rcases recovered opening entries closing after _ same with ⟨_, _, _, remains⟩ | ⟨_, goesOn⟩
  · rw [nextKind_eq_firstKind, remains]
    exact continues
  · exact goesOn

/-- A phrase that is neither an object literal nor a call is recovered in calls if it is recovered
from operands. -/
theorem recoveredInCall_of_operand (notLiteral : phrase.kind ≠ .objectLiteral)
    (notCall : phrase.kind ≠ .call)
    (operands : ∀ (operand : Operand) (after : List Token) (rest : List Word),
      words (operand.tokens ++ after) = phrase.words ++ rest →
        phrase.WellPlaced ∧ operand.phrase.bare = phrase.shown ∧ words after = rest) :
    RecoveredInCall phrase := by
  intro operand chain after rest same _
  obtain ⟨placed, shown, remains⟩ := operands operand (chain.tokens ++ after) rest same
  exact ⟨placed, notLiteral, operand.phrase, chain, shown, fun isCall => absurd isCall notCall, rfl,
    remains⟩

theorem wellPlaced_of_leaf {leaf : Phrase} (noParts : leaf.parts = []) (noBody : leaf.body = [])
    (noStatements : leaf.statements = []) (literals : leaf.HasNoLiteralPart)
    (calls : leaf.HasNoCallObject) : leaf.WellPlaced := by
  refine .of_parts literals calls noStatements ?_ noBody
  rw [noParts]
  intro child member
  cases member

theorem Operand.of_name {operand : Operand} {name : String}
    (same : words (operand.tokens ++ after) = ofName name :: rest) :
    operand.phrase.bare = .identifier name (Span.empty 0) ∧ words after = rest := by
  cases operand with
  | name derived =>
      obtain ⟨wordSame, remains⟩ := List.cons.inj same
      have text : derived.token.text = name := congrArg Word.text wordSame
      refine ⟨?_, remains⟩
      rw [← text]
      rfl
  | number numeral =>
      have kinds := numeral.ofKind.symm.trans (congrArg Word.kind (List.cons.inj same).1)
      cases kinds
  | group opening value closing =>
      have kinds := opening.kind_of_word (List.cons.inj same).1
      cases kinds

theorem Operand.of_numeral {operand : Operand} {text : String} {value : Number}
    (reads : Number.read? text = some value)
    (same : words (operand.tokens ++ after) = ⟨.number, text⟩ :: rest) :
    operand.phrase.bare = .numericLiteral value (Span.empty 0) ∧ words after = rest := by
  cases operand with
  | name derived =>
      have kinds := derived.kind_of_word (List.cons.inj same).1
      cases kinds
  | number numeral =>
      obtain ⟨wordSame, remains⟩ := List.cons.inj same
      have numeralText : numeral.token.text = text := congrArg Word.text wordSame
      have numeralReads := numeral.reads
      rw [numeralText, reads] at numeralReads
      refine ⟨?_, remains⟩
      rw [Option.some.inj numeralReads]
      rfl
  | group opening value closing =>
      have kinds := opening.kind_of_word (List.cons.inj same).1
      cases kinds

theorem Operand.of_group {operand : Operand}
    (same : words (operand.tokens ++ after) = ofMark '(' :: rest) :
    ∃ (value : Expression) (closing : Terminal .closeParen), operand.phrase = value.phrase ∧
      words (value.tokens ++ closing.token :: after) = rest := by
  cases operand with
  | name derived =>
      have kinds := derived.kind_of_word (List.cons.inj same).1
      cases kinds
  | number numeral =>
      have kinds := numeral.ofKind.symm.trans (congrArg Word.kind (List.cons.inj same).1)
      cases kinds
  | group opening value closing =>
      rw [Operand.tokens, List.cons_append, List.append_assoc] at same
      exact ⟨value, closing, rfl, (List.cons.inj same).2⟩

/-! ## One form of expressions at a time -/

theorem recovered_identifier (name : String) (span : Span) :
    Recovered (.identifier name span) := by
  refine ⟨recoveredInCall_of_operand (by simp [Phrase.kind]) (by simp [Phrase.kind]) ?_,
    recoveredInLiteral_of_firstKind rfl (by simp [ofName])⟩
  intro operand after rest same
  exact ⟨wellPlaced_of_leaf rfl rfl rfl trivial trivial, Operand.of_name same⟩

theorem recovered_numericLiteral {value : Number} (nonnegative : value.isNegative = false)
    (span : Span) : Recovered (.numericLiteral value span) := by
  have shown : (Phrase.numericLiteral value span).shown = Phrase.shownNumber value := rfl
  have start : (Phrase.numericLiteral value span).words = [ofNumber value] := rfl
  unfold ofNumber at start
  unfold Phrase.shownNumber at shown
  cases finite : value.isFinite with
  | true =>
      rw [finite, if_pos rfl] at start shown
      refine ⟨recoveredInCall_of_operand (by simp [Phrase.kind]) (by simp [Phrase.kind]) ?_,
        recoveredInLiteral_of_firstKind start (by simp)⟩
      intro operand after rest same
      rw [start] at same
      obtain ⟨_, _, _, reads⟩ := Number.exists_plain_text nonnegative finite
      rw [shown]
      exact ⟨wellPlaced_of_leaf rfl rfl rfl trivial trivial, Operand.of_numeral reads same⟩
  | false =>
      rw [finite, if_neg Bool.false_ne_true] at start shown
      refine ⟨recoveredInCall_of_operand (by simp [Phrase.kind]) (by simp [Phrase.kind]) ?_,
        recoveredInLiteral_of_firstKind start (by simp)⟩
      intro operand after rest same
      rw [start] at same
      rw [shown]
      exact ⟨wellPlaced_of_leaf rfl rfl rfl trivial trivial, Operand.of_name same⟩

theorem recovered_binary (leftRecovered : Recovered left) (rightRecovered : Recovered right)
    (operator : Operator) (span : Span) : Recovered (.binary left operator right span) := by
  refine ⟨recoveredInCall_of_operand (by simp [Phrase.kind]) (by simp [Phrase.kind]) ?_,
    recoveredInLiteral_of_firstKind rfl (by decide)⟩
  intro operand after rest same
  rw [Phrase.words, List.cons_append] at same
  obtain ⟨value, closing, phraseSame, inner⟩ := Operand.of_group same
  rw [List.append_assoc, List.cons_append, List.append_assoc] at inner
  obtain ⟨⟨leftPlaced, leftLiteral⟩, ⟨rightPlaced, rightLiteral⟩, shown, remains⟩ :=
    value.recovered_binary leftRecovered rightRecovered closing inner
  refine ⟨.of_parts ⟨leftLiteral, rightLiteral⟩ trivial rfl ?_ rfl, ?_, remains⟩
  · exact List.forall_mem_cons.2 ⟨leftPlaced, List.forall_mem_singleton.2 rightPlaced⟩
  · rw [phraseSame, shown]
    rfl

theorem recovered_assignment (targetRecovered : Recovered target) (valueRecovered : Recovered value)
    (span : Span) : Recovered (.assignment target value span) := by
  refine ⟨recoveredInCall_of_operand (by simp [Phrase.kind]) (by simp [Phrase.kind]) ?_,
    recoveredInLiteral_of_firstKind rfl (by decide)⟩
  intro operand after rest same
  rw [Phrase.words, List.cons_append] at same
  obtain ⟨derived, closing, phraseSame, inner⟩ := Operand.of_group same
  rw [List.append_assoc, List.cons_append, List.append_assoc] at inner
  obtain ⟨targetPlaced, valuePlaced, shown, remains⟩ :=
    derived.recovered_assignment targetRecovered valueRecovered closing inner
  refine ⟨.of_parts trivial trivial rfl ?_ rfl, ?_, remains⟩
  · exact List.forall_mem_cons.2 ⟨targetPlaced, List.forall_mem_singleton.2 valuePlaced⟩
  · rw [phraseSame, shown]
    rfl

theorem recovered_objectLiteral {entries : List NanoScript.Entry} (span : Span)
    (recovered : ∀ entry ∈ entries, ∀ value, entry.value? = some value → Recovered value) :
    Recovered (.objectLiteral entries span) := by
  constructor
  · intro operand chain after rest same _
    have starts := operand.starts (chain.tokens ++ after)
    rw [nextKind_eq_firstKind, same] at starts
    cases starts
  · intro opening derived closing after rest same
    rw [ObjectLiteral.tokens_literal_append, Phrase.words_objectLiteral, List.cons_append,
      List.append_assoc] at same
    obtain ⟨placed, shown, remains⟩ :=
      derived.recovered recovered closing (List.cons.inj same).2
    refine .inl ⟨rfl, .of_parts trivial trivial rfl ?_ rfl, ?_, remains⟩
    · intro value member
      obtain ⟨entry, isEntry, isValue⟩ := List.mem_filterMap.1 member
      exact placed entry isEntry value isValue
    · rw [ObjectLiteral.phrase, Phrase.bare, Phrase.shown, Phrase.rewritten_objectLiteral,
        Phrase.rewritten_objectLiteral]
      exact congrArg (Phrase.objectLiteral · (Span.empty 0)) shown

theorem recovered_call {callee : Phrase} {arguments : List Phrase}
    (calleeRecovered : Recovered callee) (shapes : ∀ argument ∈ arguments, argument.IsExpression)
    (argumentsRecovered : ∀ argument ∈ arguments, Recovered argument) (span : Span) :
    Recovered (.call callee arguments span) := by
  refine ⟨?_, recoveredInLiteral_of_object calleeRecovered.inLiteral
    (Phrase.words_call callee arguments span) rfl (by simp [Phrase.kind])⟩
  intro operand chain after rest same stops
  rw [Phrase.words_call, List.append_assoc, List.cons_append, List.append_assoc] at same
  obtain ⟨placed, notLiteral, start, ⟨members, calls⟩, startSame, _, wholeSame, remains⟩ :=
    calleeRecovered.inCall operand chain after _ same stops
  rw [Chain.tokens, List.append_assoc] at remains
  cases MemberTail.eq_done _ remains rfl
  cases calls with
  | done =>
      have atParen := congrArg firstKind remains
      rw [← nextKind_eq_firstKind] at atParen
      exact absurd atParen stops.2
  | more list others =>
      rw [MemberTail.tokens, List.nil_append, CallTail.tokens, List.append_assoc] at remains
      obtain ⟨argumentsPlaced, shown, remains⟩ :=
        list.recovered shapes argumentsRecovered remains
      have parts := List.forall_mem_cons.2 ⟨placed, argumentsPlaced⟩
      refine ⟨.of_parts notLiteral trivial rfl parts rfl, (by simp [Phrase.kind]),
        .call start list.phrases (start.span.merge list.closingSpan), ⟨.done, others⟩, ?_,
        fun _ => rfl, wholeSame, remains⟩
      rw [Phrase.bare, Phrase.shown, Phrase.rewritten_call, Phrase.rewritten_call]
      exact congrArg₂ (Phrase.call · · (Span.empty 0)) startSame shown

theorem recovered_named {object : Phrase} (recovered : Recovered object) (name : String)
    (nameSpan span : Span) :
    Recovered (.member object (.identifier name nameSpan) false span) := by
  refine ⟨?_, recoveredInLiteral_of_object recovered.inLiteral rfl rfl (by simp [Phrase.kind])⟩
  intro operand chain after rest same stops
  rw [Phrase.words, List.append_assoc] at same
  obtain ⟨placed, notLiteral, start, ⟨members, calls⟩, startSame, endsInCall, wholeSame, remains⟩ :=
    recovered.inCall operand chain after _ same stops
  rw [Chain.tokens, List.append_assoc] at remains
  cases members with
  | done =>
      have atDot := congrArg firstKind remains
      rw [← nextKind_eq_firstKind] at atDot
      exact absurd atDot (calls.stopsMember stops).1
  | named dot derived others =>
      have remains := (List.cons.inj remains).2
      have text : derived.token.text = name := congrArg Word.text (List.cons.inj remains).1
      have notCall : object.kind ≠ .call := by
        intro isCall
        cases endsInCall isCall
      have leaf : (Phrase.identifier name nameSpan).WellPlaced :=
        wellPlaced_of_leaf rfl rfl rfl trivial trivial
      have parts := List.forall_mem_cons.2 ⟨placed, List.forall_mem_singleton.2 leaf⟩
      refine ⟨.of_parts notLiteral notCall rfl parts rfl, (by simp [Phrase.kind]),
        .member start (.identifier derived.token.text derived.token.span) false
          (start.span.merge derived.token.span), ⟨others, calls⟩, ?_, (by simp [Phrase.kind]), wholeSame, ?_⟩
      · rw [← text]
        exact congrArg (Phrase.member · _ false (Span.empty 0)) startSame
      · rw [Chain.tokens, List.append_assoc]
        exact (List.cons.inj remains).2
  | computed opening property closing others =>
      have kinds := opening.kind_of_word (List.cons.inj remains).1
      cases kinds

theorem recovered_computed {object property : Phrase} (recovered : Recovered object)
    (propertyRecovered : Recovered property) (span : Span) :
    Recovered (.member object property true span) := by
  refine ⟨?_, recoveredInLiteral_of_object recovered.inLiteral rfl rfl (by simp [Phrase.kind])⟩
  intro operand chain after rest same stops
  rw [Phrase.words, List.append_assoc, List.cons_append, List.append_assoc] at same
  obtain ⟨placed, notLiteral, start, ⟨members, calls⟩, startSame, endsInCall, wholeSame, remains⟩ :=
    recovered.inCall operand chain after _ same stops
  rw [Chain.tokens, List.append_assoc] at remains
  cases members with
  | done =>
      have atBracket := congrArg firstKind remains
      rw [← nextKind_eq_firstKind] at atBracket
      exact absurd atBracket (calls.stopsMember stops).2
  | named dot derived others =>
      have kinds := dot.kind_of_word (List.cons.inj remains).1
      cases kinds
  | computed opening derived closing others =>
      rw [MemberTail.tokens, List.cons_append, List.append_assoc] at remains
      have closes : endsExpression (nextKind (closing.token :: others.tokens ++
          (calls.tokens ++ after))) = true := by
        change endsExpression closing.token.kind = true
        rw [closing.ofKind]
        rfl
      obtain ⟨propertyPlaced, shown, remains⟩ :=
        derived.recovered propertyRecovered (List.cons.inj remains).2 closes rfl
      have notCall : object.kind ≠ .call := by
        intro isCall
        cases endsInCall isCall
      have parts := List.forall_mem_cons.2 ⟨placed, List.forall_mem_singleton.2 propertyPlaced⟩
      refine ⟨.of_parts notLiteral notCall rfl parts rfl, (by simp [Phrase.kind]),
        .member start derived.phrase true (start.span.merge closing.token.span), ⟨others, calls⟩,
        ?_, (by simp [Phrase.kind]), wholeSame, ?_⟩
      · exact congrArg₂ (Phrase.member · · true (Span.empty 0)) startSame shown
      · rw [Chain.tokens, List.append_assoc]
        exact (List.cons.inj remains).2

end

/-- Every expression is recovered from its words. -/
theorem recovered_of_isExpression {phrase : Phrase} (shape : phrase.IsExpression) :
    Recovered phrase := by
  induction shape with
  | identifier _ => exact recovered_identifier _ _
  | numericLiteral nonnegative _ => exact recovered_numericLiteral nonnegative _
  | binary _ _ leftRecovered rightRecovered =>
      exact recovered_binary leftRecovered rightRecovered _ _
  | assignment _ _ targetRecovered valueRecovered =>
      exact recovered_assignment targetRecovered valueRecovered _
  | objectLiteral _ _ valuesRecovered => exact recovered_objectLiteral _ valuesRecovered
  | call _ shapes calleeRecovered argumentsRecovered =>
      exact recovered_call calleeRecovered shapes argumentsRecovered _
  | named _ _ objectRecovered => exact recovered_named objectRecovered _ _ _
  | computed _ _ objectRecovered propertyRecovered =>
      exact recovered_computed objectRecovered propertyRecovered _

end NanoScript.Grammar
