import NanoScript.Proofs.Grammar.Statement
import NanoScript.Proofs.Token.Lexical

/-!
Contract: derivations from the tokens of a source text stand for phrases of the right shape.

Owns: for each symbol of the grammar, the shape of the phrases that its derivations stand for.
-/

namespace NanoScript.Grammar

/-- All tokens are lexical. -/
def AreLexical (tokens : List Token) : Prop :=
  ∀ token ∈ tokens, token.IsLexical

@[simp] theorem areLexical_nil : AreLexical [] ↔ True := by
  simp [AreLexical]

@[simp] theorem areLexical_cons (token : Token) (rest : List Token) :
    AreLexical (token :: rest) ↔ token.IsLexical ∧ AreLexical rest :=
  List.forall_mem_cons

@[simp] theorem areLexical_append (left right : List Token) :
    AreLexical (left ++ right) ↔ AreLexical left ∧ AreLexical right :=
  List.forall_mem_append

theorem Terminal.isName (name : Terminal .identifier) (isLexical : name.token.IsLexical) :
    Token.IsName name.token.text :=
  isLexical.name name.ofKind

theorem Numeral.isExpression (numeral : Numeral) (isLexical : numeral.token.IsLexical) :
    (Phrase.numericLiteral numeral.value numeral.token.span).IsExpression := by
  have reads := numeral.reads
  rw [← String.ofList_toList (s := numeral.token.text)] at reads
  obtain ⟨nonnegative, isNumber⟩ := Number.of_read?_plain (isLexical.numeral numeral.ofKind) reads
  exact .numericLiteral nonnegative isNumber

mutual

theorem Expression.isExpression (derivation : Expression)
    (areLexical : AreLexical derivation.tokens) :
    derivation.phrase.IsExpression := by
  match derivation with
  | .plain whole => exact whole.isExpression areLexical
  | .assignment target equals value =>
      simp only [Expression.tokens, areLexical_append, areLexical_cons] at areLexical
      exact .assignment (target.isExpression areLexical.1) (value.isExpression areLexical.2.2)
termination_by structural derivation

theorem ObjectLiteral.isExpression (derivation : ObjectLiteral)
    (areLexical : AreLexical derivation.tokens) : derivation.phrase.IsExpression := by
  match derivation with
  | .literal opening entries closing =>
      simp only [ObjectLiteral.tokens, areLexical_append, areLexical_cons] at areLexical
      have shapes := entries.areExpressions areLexical.2.1
      exact .objectLiteral (fun entry member => (shapes entry member).1)
        (fun entry member => (shapes entry member).2)
  | .sum whole => exact whole.isExpression areLexical
termination_by structural derivation

theorem Entries.areExpressions (derivation : Entries) (areLexical : AreLexical derivation.tokens) :
    ∀ entry ∈ derivation.phrases, Token.IsName entry.key ∧
      ∀ value, entry.value? = some value → value.IsExpression := by
  match derivation with
  | .none =>
      intro entry member
      cases member
  | .last entry =>
      intro other member
      cases List.mem_singleton.1 member
      exact entry.isExpression areLexical
  | .more entry comma rest =>
      simp only [Entries.tokens, areLexical_append, areLexical_cons] at areLexical
      intro other member
      rcases List.mem_cons.1 member with rfl | member
      · exact entry.isExpression areLexical.1
      · exact rest.areExpressions areLexical.2.2 other member
termination_by structural derivation

theorem Entry.isExpression (derivation : Entry) (areLexical : AreLexical derivation.tokens) :
    Token.IsName derivation.phrase.key ∧
      ∀ value, derivation.phrase.value? = some value → value.IsExpression := by
  match derivation with
  | .shorthand key =>
      simp only [Entry.tokens, areLexical_cons] at areLexical
      exact ⟨key.isName areLexical.1, by simp [Entry.phrase, NanoScript.Entry.value?]⟩
  | .keyed key colon value =>
      simp only [Entry.tokens, areLexical_cons] at areLexical
      refine ⟨key.isName areLexical.1, ?_⟩
      intro whole isValue
      cases isValue
      exact value.isExpression areLexical.2.2
termination_by structural derivation

theorem Sum.isExpression (derivation : Sum) (areLexical : AreLexical derivation.tokens) :
    derivation.phrase.IsExpression := by
  match derivation with
  | .mk first tail =>
      simp only [Sum.tokens, areLexical_append] at areLexical
      exact tail.isExpression areLexical.2 (first.isExpression areLexical.1)
termination_by structural derivation

theorem SumTail.isExpression (derivation : SumTail) (areLexical : AreLexical derivation.tokens)
    {left : Phrase} (shape : left.IsExpression) : (derivation.phrase left).IsExpression := by
  match derivation with
  | .done => exact shape
  | .more mark right rest =>
      simp only [SumTail.tokens, areLexical_append, areLexical_cons] at areLexical
      exact rest.isExpression areLexical.2.2 (.binary shape (right.isExpression areLexical.2.1))
termination_by structural derivation

theorem Product.isExpression (derivation : Product) (areLexical : AreLexical derivation.tokens) :
    derivation.phrase.IsExpression := by
  match derivation with
  | .mk first tail =>
      simp only [Product.tokens, areLexical_append] at areLexical
      exact tail.isExpression areLexical.2 (first.isExpression areLexical.1)
termination_by structural derivation

theorem ProductTail.isExpression (derivation : ProductTail)
    (areLexical : AreLexical derivation.tokens) {left : Phrase} (shape : left.IsExpression) :
    (derivation.phrase left).IsExpression := by
  match derivation with
  | .done => exact shape
  | .more mark right rest =>
      simp only [ProductTail.tokens, areLexical_append, areLexical_cons] at areLexical
      exact rest.isExpression areLexical.2.2 (.binary shape (right.isExpression areLexical.2.1))
termination_by structural derivation

theorem Call.isExpression (derivation : Call) (areLexical : AreLexical derivation.tokens) :
    derivation.phrase.IsExpression := by
  match derivation with
  | .mk callee tail =>
      simp only [Call.tokens, areLexical_append] at areLexical
      exact tail.isExpression areLexical.2 (callee.isExpression areLexical.1)
termination_by structural derivation

theorem CallTail.isExpression (derivation : CallTail) (areLexical : AreLexical derivation.tokens)
    {callee : Phrase} (shape : callee.IsExpression) : (derivation.phrase callee).IsExpression := by
  match derivation with
  | .done => exact shape
  | .more list rest =>
      simp only [CallTail.tokens, areLexical_append] at areLexical
      exact rest.isExpression areLexical.2 (.call shape (list.areExpressions areLexical.1))
termination_by structural derivation

theorem ArgumentList.areExpressions (derivation : ArgumentList)
    (areLexical : AreLexical derivation.tokens) :
    ∀ phrase ∈ derivation.phrases, phrase.IsExpression := by
  match derivation with
  | .mk opening arguments closing =>
      simp only [ArgumentList.tokens, areLexical_append, areLexical_cons] at areLexical
      exact arguments.areExpressions areLexical.2.1
termination_by structural derivation

theorem Arguments.areExpressions (derivation : Arguments)
    (areLexical : AreLexical derivation.tokens) :
    ∀ phrase ∈ derivation.phrases, phrase.IsExpression := by
  match derivation with
  | .none =>
      intro phrase member
      cases member
  | .some first rest =>
      simp only [Arguments.tokens, areLexical_append] at areLexical
      intro phrase member
      rcases List.mem_cons.1 member with rfl | member
      · exact first.isExpression areLexical.1
      · exact rest.areExpressions areLexical.2 phrase member
termination_by structural derivation

theorem ArgumentsTail.areExpressions (derivation : ArgumentsTail)
    (areLexical : AreLexical derivation.tokens) :
    ∀ phrase ∈ derivation.phrases, phrase.IsExpression := by
  match derivation with
  | .done =>
      intro phrase member
      cases member
  | .more comma argument rest =>
      simp only [ArgumentsTail.tokens, areLexical_append, areLexical_cons] at areLexical
      intro phrase member
      rcases List.mem_cons.1 member with rfl | member
      · exact argument.isExpression areLexical.2.1
      · exact rest.areExpressions areLexical.2.2 phrase member
termination_by structural derivation

theorem Member.isExpression (derivation : Member) (areLexical : AreLexical derivation.tokens) :
    derivation.phrase.IsExpression := by
  match derivation with
  | .mk object tail =>
      simp only [Member.tokens, areLexical_append] at areLexical
      exact tail.isExpression areLexical.2 (object.isExpression areLexical.1)
termination_by structural derivation

theorem MemberTail.isExpression (derivation : MemberTail)
    (areLexical : AreLexical derivation.tokens) {object : Phrase} (shape : object.IsExpression) :
    (derivation.phrase object).IsExpression := by
  match derivation with
  | .done => exact shape
  | .named dot name rest =>
      simp only [MemberTail.tokens, areLexical_cons] at areLexical
      exact rest.isExpression areLexical.2.2 (.named shape (name.isName areLexical.2.1))
  | .computed opening property closing rest =>
      simp only [MemberTail.tokens, areLexical_append, areLexical_cons] at areLexical
      exact rest.isExpression areLexical.2.2.2
        (.computed shape (property.isExpression areLexical.2.1))
termination_by structural derivation

theorem Operand.isExpression (derivation : Operand) (areLexical : AreLexical derivation.tokens) :
    derivation.phrase.IsExpression := by
  match derivation with
  | .name name =>
      simp only [Operand.tokens, areLexical_cons] at areLexical
      exact .identifier (name.isName areLexical.1)
  | .number numeral =>
      simp only [Operand.tokens, areLexical_cons] at areLexical
      exact numeral.isExpression areLexical.1
  | .group opening value closing =>
      simp only [Operand.tokens, areLexical_append, areLexical_cons] at areLexical
      exact value.isExpression areLexical.2.1
termination_by structural derivation

end

/-! ## Statements -/

theorem ParameterList.areNames_names (parameters : ParameterList)
    (areLexical : AreLexical parameters.list.tokens) :
    ∀ name ∈ parameters.names, Token.IsName name := by
  intro name member
  obtain ⟨phrase, isParameter, isName⟩ := List.mem_filterMap.1 member
  cases parameters.list.areExpressions areLexical phrase isParameter with
  | identifier nameShape =>
      cases isName
      exact nameShape
  | _ => cases isName

mutual

theorem Statement.isStatement (derivation : Statement) (areLexical : AreLexical derivation.tokens) :
    derivation.phrase.IsStatement := by
  match derivation with
  | .declaration keyword name semicolon =>
      simp only [Statement.tokens, areLexical_cons] at areLexical
      exact .declaration (name.isName areLexical.2.1)
  | .initialized constant keyword name equals value semicolon =>
      simp only [Statement.tokens, areLexical_append, areLexical_cons] at areLexical
      obtain ⟨_, isName, _, isValue, _⟩ := areLexical
      exact .initialized (name.isName isName) (value.isExpression isValue)
  | .function keyword name parameters opening body closing =>
      simp only [Statement.tokens, areLexical_append, areLexical_cons] at areLexical
      obtain ⟨_, isName, areParameters, _, isBody, _⟩ := areLexical
      exact .function (name.isName isName) (parameters.areNames_names areParameters)
        (body.areStatements isBody)
  | .terminated value semicolon =>
      simp only [Statement.tokens, areLexical_append] at areLexical
      exact .expression (value.isExpression areLexical.1)
  | .unterminated value => exact .expression (value.isExpression areLexical)
termination_by structural derivation

theorem Statements.areStatements (derivation : Statements)
    (areLexical : AreLexical derivation.tokens) :
    ∀ phrase ∈ derivation.phrases, phrase.IsStatement := by
  match derivation with
  | .none =>
      intro phrase member
      cases member
  | .more first rest =>
      simp only [Statements.tokens, areLexical_append] at areLexical
      intro phrase member
      rcases List.mem_cons.1 member with rfl | member
      · exact first.isStatement areLexical.1
      · exact rest.areStatements areLexical.2 phrase member
termination_by structural derivation

end

end NanoScript.Grammar
