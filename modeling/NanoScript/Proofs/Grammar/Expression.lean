import NanoScript.Number.Numeral
import NanoScript.Phrase.Basic
import NanoScript.Token.Basic

/-!
Contract: the grammar of expressions, one type of derivations for each of its symbols.

Owns:
- the terminals, each a token that carries the proof of what it is;
- the derivations of expressions;
- the tokens that a derivation derives, in order, and the phrase that it stands for.

Does not own: reading.  Nothing here looks at a token that a derivation does not contain.
-/

namespace NanoScript.Grammar

/-! ## Terminals -/

/-- A token of a given kind. -/
structure Terminal (kind : Token.Kind) where
  token : Token
  ofKind : token.kind = kind

/-- A number token whose text is a numeral. -/
structure Numeral where
  token : Token
  value : Number
  ofKind : token.kind = .number
  reads : Number.read? token.text = some value

/-- An operator token whose text is the symbol of an operator of one level. -/
structure OperatorMark (level : Operator → Bool) where
  token : Token
  operator : Operator
  ofKind : token.kind = .binaryOperator
  ofSymbol : Operator.ofSymbol? token.text = some operator
  onLevel : level operator = true

@[ext] theorem Terminal.ext {kind : Token.Kind} {left right : Terminal kind}
    (same : left.token = right.token) : left = right := by
  cases left
  cases right
  cases same
  rfl

@[ext] theorem Numeral.ext {left right : Numeral} (same : left.token = right.token) :
    left = right := by
  obtain ⟨token, value, ofKind, reads⟩ := left
  obtain ⟨_, otherValue, _, otherReads⟩ := right
  cases same
  cases Option.some.inj (reads.symm.trans otherReads)
  rfl

@[ext] theorem OperatorMark.ext {level : Operator → Bool} {left right : OperatorMark level}
    (same : left.token = right.token) : left = right := by
  obtain ⟨token, operator, ofKind, ofSymbol, onLevel⟩ := left
  obtain ⟨_, otherOperator, _, otherOfSymbol, _⟩ := right
  cases same
  cases Option.some.inj (ofSymbol.symm.trans otherOfSymbol)
  rfl

/-! ## Derivations -/

mutual

/-- `Expr := Obj | Obj '=' Expr` -/
inductive Expression where
  | plain (whole : ObjectLiteral)
  | assignment (target : ObjectLiteral) (equals : Terminal .equals) (value : Expression)

/-- `Obj := '{' [Entry {',' Entry} [',']] '}' | Add` -/
inductive ObjectLiteral where
  | literal (opening : Terminal .openBrace) (entries : Entries) (closing : Terminal .closeBrace)
  | sum (whole : Sum)

/-- `[Entry {',' Entry} [',']]` -/
inductive Entries where
  | none
  | last (entry : Entry)
  | more (entry : Entry) (comma : Terminal .comma) (rest : Entries)

/-- `Entry := Id | Id ':' Expr` -/
inductive Entry where
  | shorthand (key : Terminal .identifier)
  | keyed (key : Terminal .identifier) (colon : Terminal .colon) (value : Expression)

/-- `Add := Mul {(+|-) Mul}` -/
inductive Sum where
  | mk (first : Product) (tail : SumTail)

/-- `{(+|-) Mul}` -/
inductive SumTail where
  | done
  | more (mark : OperatorMark Operator.isAdditive) (right : Product) (rest : SumTail)

/-- `Mul := Call {(*|/|%) Call}` -/
inductive Product where
  | mk (first : Call) (tail : ProductTail)

/-- `{(*|/|%) Call}` -/
inductive ProductTail where
  | done
  | more (mark : OperatorMark Operator.isMultiplicative) (right : Call) (rest : ProductTail)

/-- `Call := Mem {'(' [Expr {',' Expr}] ')'}` -/
inductive Call where
  | mk (callee : Member) (tail : CallTail)

/-- `{'(' [Expr {',' Expr}] ')'}` -/
inductive CallTail where
  | done
  | more (arguments : ArgumentList) (rest : CallTail)

/-- `'(' [Expr {',' Expr}] ')'` -/
inductive ArgumentList where
  | mk (opening : Terminal .openParen) (arguments : Arguments) (closing : Terminal .closeParen)

/-- `[Expr {',' Expr}]` -/
inductive Arguments where
  | none
  | some (first : Expression) (rest : ArgumentsTail)

/-- `{',' Expr}` -/
inductive ArgumentsTail where
  | done
  | more (comma : Terminal .comma) (argument : Expression) (rest : ArgumentsTail)

/-- `Mem := Prim {'.' Id | '[' Expr ']'}` -/
inductive Member where
  | mk (object : Operand) (tail : MemberTail)

/-- `{'.' Id | '[' Expr ']'}` -/
inductive MemberTail where
  | done
  | named (dot : Terminal .dot) (name : Terminal .identifier) (rest : MemberTail)
  | computed (opening : Terminal .openBracket) (property : Expression)
      (closing : Terminal .closeBracket) (rest : MemberTail)

/-- `Prim := Id | Number | '(' Expr ')'` -/
inductive Operand where
  | name (name : Terminal .identifier)
  | number (numeral : Numeral)
  | group (opening : Terminal .openParen) (value : Expression) (closing : Terminal .closeParen)

end

/-! ## The tokens of a derivation -/

mutual

def Expression.tokens : Expression → List Token
  | .plain whole => whole.tokens
  | .assignment target equals value => target.tokens ++ equals.token :: value.tokens

def ObjectLiteral.tokens : ObjectLiteral → List Token
  | .literal opening entries closing => opening.token :: (entries.tokens ++ [closing.token])
  | .sum whole => whole.tokens

def Entries.tokens : Entries → List Token
  | .none => []
  | .last entry => entry.tokens
  | .more entry comma rest => entry.tokens ++ comma.token :: rest.tokens

def Entry.tokens : Entry → List Token
  | .shorthand key => [key.token]
  | .keyed key colon value => key.token :: colon.token :: value.tokens

def Sum.tokens : Sum → List Token
  | .mk first tail => first.tokens ++ tail.tokens

def SumTail.tokens : SumTail → List Token
  | .done => []
  | .more mark right rest => mark.token :: (right.tokens ++ rest.tokens)

def Product.tokens : Product → List Token
  | .mk first tail => first.tokens ++ tail.tokens

def ProductTail.tokens : ProductTail → List Token
  | .done => []
  | .more mark right rest => mark.token :: (right.tokens ++ rest.tokens)

def Call.tokens : Call → List Token
  | .mk callee tail => callee.tokens ++ tail.tokens

def CallTail.tokens : CallTail → List Token
  | .done => []
  | .more arguments rest => arguments.tokens ++ rest.tokens

def ArgumentList.tokens : ArgumentList → List Token
  | .mk opening arguments closing => opening.token :: (arguments.tokens ++ [closing.token])

def Arguments.tokens : Arguments → List Token
  | .none => []
  | .some first rest => first.tokens ++ rest.tokens

def ArgumentsTail.tokens : ArgumentsTail → List Token
  | .done => []
  | .more comma argument rest => comma.token :: (argument.tokens ++ rest.tokens)

def Member.tokens : Member → List Token
  | .mk object tail => object.tokens ++ tail.tokens

def MemberTail.tokens : MemberTail → List Token
  | .done => []
  | .named dot name rest => dot.token :: name.token :: rest.tokens
  | .computed opening property closing rest =>
      opening.token :: (property.tokens ++ closing.token :: rest.tokens)

def Operand.tokens : Operand → List Token
  | .name name => [name.token]
  | .number numeral => [numeral.token]
  | .group opening value closing => opening.token :: (value.tokens ++ [closing.token])

end

/-! ## The phrase of a derivation -/

/-- The place of the closing parenthesis. -/
def ArgumentList.closingSpan : ArgumentList → Span
  | .mk _ _ closing => closing.token.span

mutual

def Expression.phrase : Expression → Phrase
  | .plain whole => whole.phrase
  | .assignment target _ value =>
      .assignment target.phrase value.phrase (target.phrase.span.merge value.phrase.span)

def ObjectLiteral.phrase : ObjectLiteral → Phrase
  | .literal opening entries closing =>
      .objectLiteral entries.phrases (opening.token.span.merge closing.token.span)
  | .sum whole => whole.phrase

def Entries.phrases : Entries → List NanoScript.Entry
  | .none => []
  | .last entry => [entry.phrase]
  | .more entry _ rest => entry.phrase :: rest.phrases

def Entry.phrase : Entry → NanoScript.Entry
  | .shorthand key => .shorthand key.token.text key.token.span
  | .keyed key _ value =>
      .keyed key.token.text value.phrase (key.token.span.merge value.phrase.span)

def Sum.phrase : Sum → Phrase
  | .mk first tail => tail.phrase first.phrase

/-- Operators of one level group to the left. -/
def SumTail.phrase (left : Phrase) : SumTail → Phrase
  | .done => left
  | .more mark right rest => rest.phrase (.ofOperands left mark.operator right.phrase)

def Product.phrase : Product → Phrase
  | .mk first tail => tail.phrase first.phrase

def ProductTail.phrase (left : Phrase) : ProductTail → Phrase
  | .done => left
  | .more mark right rest => rest.phrase (.ofOperands left mark.operator right.phrase)

def Call.phrase : Call → Phrase
  | .mk callee tail => tail.phrase callee.phrase

def CallTail.phrase (callee : Phrase) : CallTail → Phrase
  | .done => callee
  | .more arguments rest =>
      rest.phrase (.call callee arguments.phrases (callee.span.merge arguments.closingSpan))

def ArgumentList.phrases : ArgumentList → List Phrase
  | .mk _ arguments _ => arguments.phrases

def Arguments.phrases : Arguments → List Phrase
  | .none => []
  | .some first rest => first.phrase :: rest.phrases

def ArgumentsTail.phrases : ArgumentsTail → List Phrase
  | .done => []
  | .more _ argument rest => argument.phrase :: rest.phrases

def Member.phrase : Member → Phrase
  | .mk object tail => tail.phrase object.phrase

def MemberTail.phrase (object : Phrase) : MemberTail → Phrase
  | .done => object
  | .named _ name rest =>
      rest.phrase
        (.member object (.identifier name.token.text name.token.span) false
          (object.span.merge name.token.span))
  | .computed _ property closing rest =>
      rest.phrase
        (.member object property.phrase true (object.span.merge closing.token.span))

/-- Parentheses leave no trace in the phrase. -/
def Operand.phrase : Operand → Phrase
  | .name name => .identifier name.token.text name.token.span
  | .number numeral => .numericLiteral numeral.value numeral.token.span
  | .group _ value _ => value.phrase

end

end NanoScript.Grammar
