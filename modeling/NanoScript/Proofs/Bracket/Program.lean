import NanoScript.Proofs.Bracket.Word
import NanoScript.Proofs.Reading.Source
import NanoScript.Proofs.Token.Exactness

/-!
Contract: the brackets of programs.

Owns:
- the edges of tokens, which are those of the text that the tokens are cut from;
- the theorem that derivations have balanced edges;
- the verdict on a text that spells out a program, and on each beginning of it.

The grammar uses brackets for literals, groups, arguments, parameters, properties and bodies.
Every use encloses a part that the grammar derives, which is all that the proof has to know about
it.
-/

namespace NanoScript

/-! ## Edges of tokens -/

namespace Token

open NanoScript.Bracket

/-- The edge that the tokens of a kind are. -/
def Kind.edge? : Kind → Option Edge
  | .openParen => some (.opening .round)
  | .closeParen => some (.closing .round)
  | .openBracket => some (.opening .square)
  | .closeBracket => some (.closing .square)
  | .openBrace => some (.opening .curly)
  | .closeBrace => some (.closing .curly)
  | _ => none

/-- The edges of tokens in order. -/
def edges (tokens : List Token) : List Edge :=
  tokens.flatMap fun token => token.kind.edge?.toList

@[simp] theorem edges_append (left right : List Token) :
    edges (left ++ right) = edges left ++ edges right :=
  List.flatMap_append

theorem edges_cons (token : Token) (rest : List Token) :
    edges (token :: rest) = token.kind.edge?.toList ++ edges rest :=
  List.flatMap_cons

/-! ## Edges of lexemes -/

/-- The brackets are those marks whose kinds are edges. -/
theorem edge?_eq_bind (c : Char) : Bracket.edge? c = (Kind.ofMark? c).bind Kind.edge? := by
  unfold Kind.ofMark?
  split
  all_goals try rfl
  -- The character is none of the marks, so it is none of the brackets.
  unfold Bracket.edge? opened? closed?
  split <;> simp_all

/-- A character that is no mark is no bracket. -/
theorem edge?_eq_none {c : Char} (noMark : ∀ kind, Kind.ofMark? c ≠ some kind) :
    Bracket.edge? c = none := by
  rw [edge?_eq_bind, Option.eq_none_iff_forall_ne_some.2 noMark]
  rfl

theorem edge?_of_isLetter {c : Char} (letter : isLetter c = true) : Bracket.edge? c = none := by
  refine edge?_eq_none fun kind isMark => ?_
  rw [(isLetter_of_ofMark? isMark).1] at letter
  cases letter

theorem edge?_of_isDigit {c : Char} (digit : isDigit c = true) : Bracket.edge? c = none := by
  refine edge?_eq_none fun kind isMark => ?_
  rw [(isLetter_of_ofMark? isMark).2] at digit
  cases digit

theorem edge?_of_isLayout {c : Char} (layout : isLayout c = true) : Bracket.edge? c = none := by
  simp only [isLayout, Bool.or_eq_true, decide_eq_true_eq] at layout
  rcases layout with ((blank | tab) | newline) | carriageReturn <;> subst c <;> decide

/-- No word is an edge. -/
theorem Kind.edge?_ofWord (word : String) : (Kind.ofWord word).edge? = none := by
  unfold Kind.ofWord
  split <;> rfl

/-- A numeral has no edges: its characters are digits and the mark before its places. -/
theorem edges_of_isPlain {figures : List Char} (isPlain : Decimal.IsPlain figures) :
    Bracket.edges figures = [] := by
  refine Bracket.edges_eq_nil ?_
  cases isPlain with
  | whole nonempty areDigits => exact fun c member => edge?_of_isDigit (areDigits c member)
  | fraction nonempty placesNonempty areDigits placesAreDigits =>
      refine List.forall_mem_append.2 ⟨?_, List.forall_mem_cons.2 ⟨by decide, ?_⟩⟩
      · exact fun c member => edge?_of_isDigit (areDigits c member)
      · exact fun c member => edge?_of_isDigit (placesAreDigits c member)

/-- The characters of a token have the edge of its kind, if it has one. -/
theorem Kind.Matches.edges {kind : Kind} {text : List Char} (isMatch : kind.Matches text) :
    Bracket.edges text = kind.edge?.toList := by
  obtain ⟨first, tail, rfl⟩ := isMatch.exists_cons
  rcases isMatch.cases_first with ⟨areLetters, isWord⟩ | ⟨_, isPlain, rfl⟩ | ⟨isMark, rfl⟩
  · have plain : kind.edge? = none := by
      rcases isWord with rfl | rfl
      · exact Kind.edge?_ofWord _
      · rfl
    rw [plain, Bracket.edges_eq_nil fun c member => edge?_of_isLetter (areLetters c member)]
    rfl
  · exact edges_of_isPlain isPlain
  · rw [Bracket.edges_cons, edge?_eq_bind, isMark]
    exact List.append_nil _

/-- The edges of a text are those of its tokens. -/
theorem Scans.edges {offset : Nat} {text : List Char} {tokens : List Token}
    (scans : Scans offset text tokens) : Bracket.edges text = Token.edges tokens := by
  induction scans with
  | mark offset => rfl
  | layout layout _ inductionHypothesis =>
      rw [Bracket.edges_cons, edge?_of_isLayout layout]
      exact inductionHypothesis
  | lexeme notLayout found _ inductionHypothesis =>
      have isMatch := (leads_of_lexeme? found).suits.isMatch
      rw [← List.cons_append, Bracket.edges_append, isMatch.edges, inductionHypothesis, edges_cons]

end Token

/-! ## Balanced tokens -/

namespace Grammar

open NanoScript.Bracket

/-- The edges of tokens balance. -/
def IsBalanced (tokens : List Token) : Prop :=
  Balanced (Token.edges tokens)

namespace IsBalanced

theorem nil : IsBalanced [] :=
  Balanced.nil

theorem append {left right : List Token} (isLeft : IsBalanced left) (isRight : IsBalanced right) :
    IsBalanced (left ++ right) := by
  unfold IsBalanced
  rw [Token.edges_append]
  exact Balanced.append isLeft isRight

/-- A token that is no edge may stand before balanced ones. -/
theorem cons {token : Token} {rest : List Token} (plain : token.kind.edge? = none)
    (isRest : IsBalanced rest) : IsBalanced (token :: rest) := by
  unfold IsBalanced
  rw [Token.edges_cons, plain]
  exact isRest

/-- Balanced tokens may be put between the two edges of a shape. -/
theorem enclosed (shape : Shape) {opening closing : Token} {inner rest : List Token}
    (opens : opening.kind.edge? = some (.opening shape))
    (closes : closing.kind.edge? = some (.closing shape)) (isInner : IsBalanced inner)
    (isRest : IsBalanced rest) : IsBalanced (opening :: (inner ++ closing :: rest)) := by
  unfold IsBalanced
  rw [Token.edges_cons, opens, Token.edges_append, Token.edges_cons, closes]
  exact Balanced.enclosed shape isInner isRest

end IsBalanced

theorem Terminal.edge?_eq {kind : Token.Kind} (terminal : Terminal kind) :
    terminal.token.kind.edge? = kind.edge? :=
  congrArg Token.Kind.edge? terminal.ofKind

theorem Numeral.edge?_eq (numeral : Numeral) : numeral.token.kind.edge? = none :=
  congrArg Token.Kind.edge? numeral.ofKind

theorem OperatorMark.edge?_eq {level : Operator → Bool} (mark : OperatorMark level) :
    mark.token.kind.edge? = none :=
  congrArg Token.Kind.edge? mark.ofKind

/-! ## Derivations

The induction is over all symbols at once; `enclosed` is needed wherever a rule writes brackets. -/

mutual

theorem Expression.isBalanced (derivation : Expression) : IsBalanced derivation.tokens := by
  match derivation with
  | .plain whole => exact whole.isBalanced
  | .assignment target equals value =>
      exact target.isBalanced.append (value.isBalanced.cons equals.edge?_eq)
termination_by structural derivation

theorem ObjectLiteral.isBalanced (derivation : ObjectLiteral) : IsBalanced derivation.tokens := by
  match derivation with
  | .literal opening entries closing =>
      exact .enclosed .curly opening.edge?_eq closing.edge?_eq entries.isBalanced .nil
  | .sum whole => exact whole.isBalanced
termination_by structural derivation

theorem Entries.isBalanced (derivation : Entries) : IsBalanced derivation.tokens := by
  match derivation with
  | .none => exact .nil
  | .last entry => exact entry.isBalanced
  | .more entry comma rest =>
      exact entry.isBalanced.append (rest.isBalanced.cons comma.edge?_eq)
termination_by structural derivation

theorem Entry.isBalanced (derivation : Entry) : IsBalanced derivation.tokens := by
  match derivation with
  | .shorthand key => exact IsBalanced.nil.cons key.edge?_eq
  | .keyed key colon value =>
      exact (value.isBalanced.cons colon.edge?_eq).cons key.edge?_eq
termination_by structural derivation

theorem Sum.isBalanced (derivation : Sum) : IsBalanced derivation.tokens := by
  match derivation with
  | .mk first tail => exact first.isBalanced.append tail.isBalanced
termination_by structural derivation

theorem SumTail.isBalanced (derivation : SumTail) : IsBalanced derivation.tokens := by
  match derivation with
  | .done => exact .nil
  | .more mark right rest =>
      exact (right.isBalanced.append rest.isBalanced).cons mark.edge?_eq
termination_by structural derivation

theorem Product.isBalanced (derivation : Product) : IsBalanced derivation.tokens := by
  match derivation with
  | .mk first tail => exact first.isBalanced.append tail.isBalanced
termination_by structural derivation

theorem ProductTail.isBalanced (derivation : ProductTail) : IsBalanced derivation.tokens := by
  match derivation with
  | .done => exact .nil
  | .more mark right rest =>
      exact (right.isBalanced.append rest.isBalanced).cons mark.edge?_eq
termination_by structural derivation

theorem Call.isBalanced (derivation : Call) : IsBalanced derivation.tokens := by
  match derivation with
  | .mk callee tail => exact callee.isBalanced.append tail.isBalanced
termination_by structural derivation

theorem CallTail.isBalanced (derivation : CallTail) : IsBalanced derivation.tokens := by
  match derivation with
  | .done => exact .nil
  | .more arguments rest => exact arguments.isBalanced.append rest.isBalanced
termination_by structural derivation

theorem ArgumentList.isBalanced (derivation : ArgumentList) : IsBalanced derivation.tokens := by
  match derivation with
  | .mk opening arguments closing =>
      exact .enclosed .round opening.edge?_eq closing.edge?_eq arguments.isBalanced .nil
termination_by structural derivation

theorem Arguments.isBalanced (derivation : Arguments) : IsBalanced derivation.tokens := by
  match derivation with
  | .none => exact .nil
  | .some first rest => exact first.isBalanced.append rest.isBalanced
termination_by structural derivation

theorem ArgumentsTail.isBalanced (derivation : ArgumentsTail) : IsBalanced derivation.tokens := by
  match derivation with
  | .done => exact .nil
  | .more comma argument rest =>
      exact (argument.isBalanced.append rest.isBalanced).cons comma.edge?_eq
termination_by structural derivation

theorem Member.isBalanced (derivation : Member) : IsBalanced derivation.tokens := by
  match derivation with
  | .mk object tail => exact object.isBalanced.append tail.isBalanced
termination_by structural derivation

theorem MemberTail.isBalanced (derivation : MemberTail) : IsBalanced derivation.tokens := by
  match derivation with
  | .done => exact .nil
  | .named dot name rest =>
      exact (rest.isBalanced.cons name.edge?_eq).cons dot.edge?_eq
  | .computed opening property closing rest =>
      exact .enclosed .square opening.edge?_eq closing.edge?_eq property.isBalanced
        rest.isBalanced
termination_by structural derivation

theorem Operand.isBalanced (derivation : Operand) : IsBalanced derivation.tokens := by
  match derivation with
  | .name name => exact IsBalanced.nil.cons name.edge?_eq
  | .number numeral => exact IsBalanced.nil.cons numeral.edge?_eq
  | .group opening value closing =>
      exact .enclosed .round opening.edge?_eq closing.edge?_eq value.isBalanced .nil
termination_by structural derivation

end

theorem declarationKeyword_edge?_eq (constant : Bool) :
    (declarationKeyword constant).edge? = none := by
  cases constant <;> rfl

mutual

theorem Statement.isBalanced (derivation : Statement) : IsBalanced derivation.tokens := by
  match derivation with
  | .declaration keyword name semicolon =>
      have ending : IsBalanced [semicolon.token] := IsBalanced.nil.cons semicolon.edge?_eq
      exact (ending.cons name.edge?_eq).cons keyword.edge?_eq
  | .initialized constant keyword name equals value semicolon =>
      have ending : IsBalanced [semicolon.token] := IsBalanced.nil.cons semicolon.edge?_eq
      have initializer := (value.isBalanced.append ending).cons equals.edge?_eq
      exact (initializer.cons name.edge?_eq).cons
        (keyword.edge?_eq.trans (declarationKeyword_edge?_eq constant))
  | .function keyword name parameters opening body closing =>
      have block := IsBalanced.enclosed .curly opening.edge?_eq closing.edge?_eq body.isBalanced .nil
      exact ((parameters.list.isBalanced.append block).cons name.edge?_eq).cons keyword.edge?_eq
  | .terminated value semicolon =>
      exact value.isBalanced.append (IsBalanced.nil.cons semicolon.edge?_eq)
  | .unterminated value => exact value.isBalanced
termination_by structural derivation

theorem Statements.isBalanced (derivation : Statements) : IsBalanced derivation.tokens := by
  match derivation with
  | .none => exact .nil
  | .more first rest => exact first.isBalanced.append rest.isBalanced
termination_by structural derivation

end

end Grammar

/-! ## Programs -/

namespace Bracket

open Token

/-- The edges of a text that spells out a program balance. -/
theorem balanced_of_ofSource {source : String} {program : Phrase}
    (reads : Phrase.ofSource source = .ok program) : Balanced (edges source.toList) := by
  obtain ⟨derivation, scans, _⟩ := Phrase.exists_derivation_of_ofSource reads
  have isBalanced : Grammar.IsBalanced derivation.tokens := derivation.statements.isBalanced
  rw [(scans_of_scan scans).edges, Token.edges_append]
  exact Balanced.append isBalanced .nil

/-- A text that spells out a program is found balanced, and every beginning of it balanced or
unfinished, so that its text may be entered in parts. -/
theorem judge_of_program {source : String} {program : Phrase}
    (reads : Phrase.ofSource source = .ok program) :
    judge source = .balanced ∧
      ∀ before after, source = before ++ after →
        judge before = .balanced ∨ judge before = .unfinished := by
  have balanced := balanced_of_ofSource reads
  refine ⟨(judge_eq_balanced_iff source).2 (balanced.leftOpen_eq []), ?_⟩
  rintro before after rfl
  rw [String.toList_append, edges_append] at balanced
  obtain ⟨behind, isOpen⟩ := balanced.exists_leftOpen_of_prefix
  exact judge_of_leftOpen isOpen

/-- Brackets of all three shapes in a program, and a beginning that cuts through all of them. -/
theorem group_in_property_in_body_judged :
    let source := "fn f(a) \x7b a[(1)] \x7d"
    let beginning := "fn f(a) \x7b a[(1"
    (Phrase.ofSource source).isOk = true ∧ judge source = .balanced ∧
      judge beginning = .unfinished := by
  intro source beginning
  have isOk : (Phrase.ofSource source).isOk = true := by decide +kernel
  refine ⟨isOk, ?_⟩
  cases reads : Phrase.ofSource source with
  | error error =>
      rw [reads] at isOk
      cases isOk
  | ok program =>
      obtain ⟨whole, beginnings⟩ := judge_of_program reads
      refine ⟨whole, ?_⟩
      rcases beginnings beginning ")] \x7d" rfl with isBalanced | isUnfinished
      · exact absurd isBalanced (by decide +kernel)
      · exact isUnfinished

end Bracket

end NanoScript
