import NanoScript.Proofs.Grammar.Expression
import NanoScript.Reading.Basic

/-!
Contract: the grammar of statements and programs.

Owns:
- the derivations of statements and lists of statements, with their tokens and phrases;
- the rule that decides where a statement without a semicolon ends;
- the derivations of programs.

An expression statement may leave out its semicolon, and a parenthesis that opens the next
statement would then continue it as a call.  Only an expression that ends in an object literal
cannot be called, so that no other expression without a semicolon may stand before a parenthesis.
-/

namespace NanoScript.Grammar

/-! ## Parameters -/

/-- An argument list in which every expression is a name, parentheses around it left aside. -/
structure ParameterList where
  list : ArgumentList
  areNames : ∀ phrase ∈ list.phrases, phrase.name?.isSome

/-- The names that stand in a parameter list. -/
def ParameterList.names (parameters : ParameterList) : List String :=
  parameters.list.phrases.filterMap Phrase.name?

@[ext] theorem ParameterList.ext {left right : ParameterList} (same : left.list = right.list) :
    left = right := by
  cases left
  cases right
  cases same
  rfl

/-! ## Statements -/

/-- The keyword of a variable declaration. -/
def declarationKeyword (constant : Bool) : Token.Kind :=
  if constant then .constKeyword else .letKeyword

mutual

/-- `Stmt := let Id ';' | (let|const) Id '=' Expr ';'
| fn Id '(' [Expr {',' Expr}] ')' '{' Stmt* '}' | Expr [';']` -/
inductive Statement where
  | declaration (keyword : Terminal .letKeyword) (name : Terminal .identifier)
      (semicolon : Terminal .semicolon)
  | initialized (constant : Bool) (keyword : Terminal (declarationKeyword constant))
      (name : Terminal .identifier) (equals : Terminal .equals) (value : Expression)
      (semicolon : Terminal .semicolon)
  | function (keyword : Terminal .fnKeyword) (name : Terminal .identifier)
      (parameters : ParameterList) (opening : Terminal .openBrace) (body : Statements)
      (closing : Terminal .closeBrace)
  | terminated (value : Expression) (semicolon : Terminal .semicolon)
  | unterminated (value : Expression)

/-- `Stmt*` -/
inductive Statements where
  | none
  | more (first : Statement) (rest : Statements)

end

mutual

def Statement.tokens : Statement → List Token
  | .declaration keyword name semicolon => [keyword.token, name.token, semicolon.token]
  | .initialized _ keyword name equals value semicolon =>
      keyword.token :: name.token :: equals.token :: (value.tokens ++ [semicolon.token])
  | .function keyword name parameters opening body closing =>
      keyword.token :: name.token ::
        (parameters.list.tokens ++ opening.token :: (body.tokens ++ [closing.token]))
  | .terminated value semicolon => value.tokens ++ [semicolon.token]
  | .unterminated value => value.tokens

def Statements.tokens : Statements → List Token
  | .none => []
  | .more first rest => first.tokens ++ rest.tokens

end

mutual

def Statement.phrase : Statement → Phrase
  | .declaration keyword name semicolon =>
      .variableDeclaration name.token.text none false
        (keyword.token.span.merge semicolon.token.span)
  | .initialized constant keyword name _ value semicolon =>
      .variableDeclaration name.token.text (some value.phrase) constant
        (keyword.token.span.merge semicolon.token.span)
  | .function keyword name parameters _ body closing =>
      .functionDeclaration name.token.text parameters.names body.phrases
        (keyword.token.span.merge closing.token.span)
  | .terminated value _ => value.phrase
  | .unterminated value => value.phrase

def Statements.phrases : Statements → List Phrase
  | .none => []
  | .more first rest => first.phrase :: rest.phrases

end

/-! ## Where a statement without a semicolon ends -/

/-- An object literal, not a sum in its place. -/
def ObjectLiteral.IsLiteral : ObjectLiteral → Prop
  | .literal .. => True
  | .sum _ => False

/-- The last thing in an expression is an object literal, which is no part of an operand. -/
def Expression.EndsInLiteral : Expression → Prop
  | .plain whole => whole.IsLiteral
  | .assignment _ _ value => value.EndsInLiteral

/-- Whether a statement may stand before a token of some kind: an expression without a semicolon
stands before an opening parenthesis only if it ends in an object literal. -/
def Statement.MayPrecede (next : Token.Kind) : Statement → Prop
  | .unterminated value => next = .openParen → value.EndsInLiteral
  | _ => True

mutual

/-- The rule holds in all function bodies inside a statement. -/
def Statement.Separated : Statement → Prop
  | .function _ _ _ _ body _ => body.Separated
  | _ => True

/-- Every statement of a list may stand before the next one. -/
def Statements.Separated : Statements → Prop
  | .none => True
  | .more first rest =>
      first.Separated ∧ first.MayPrecede (Reading.nextKind rest.tokens) ∧ rest.Separated

end

/-! ## Programs -/

/-- `Program := Stmt*`, with every statement ending where the rule says. -/
structure Program where
  statements : Statements
  separated : statements.Separated

namespace Program

/-- The tokens of a program, the end-of-input mark left out. -/
def tokens (program : Program) : List Token :=
  program.statements.tokens

/-- The phrase of a program whose end-of-input mark stops at an offset. -/
def phrase (program : Program) (stop : Nat) : Phrase :=
  .program program.statements.phrases ⟨0, stop⟩

@[ext] theorem ext {left right : Program} (same : left.statements = right.statements) :
    left = right := by
  cases left
  cases right
  cases same
  rfl

end Program

end NanoScript.Grammar
