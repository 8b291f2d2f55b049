import NanoScript.Proofs.Grammar.Statement
import NanoScript.Proofs.Token.Patterns

/-!
Contract: tokens at which something that the grammar derives begins.

Owns:
- written tokens: those that source texts are made of;
- a written token of every kind that the grammar asks for;
- the beginnings of derivations, and the beginnings of what is built around a derivation.

A list of tokens is the beginning of a derivation if written tokens complete it.
-/

namespace NanoScript

namespace Token

/-- The text of a token is of its kind, as in a source text. -/
def IsWritten (token : Token) : Prop :=
  token.kind.Suits token.text.toList

/-- A text of a kind: the one of its own that the kind has, or a name. -/
def Kind.sampleText (kind : Kind) : String :=
  match Kind.fixedTexts.find? fun entry => entry.2 = kind with
  | some entry => entry.1
  | none => "x"

/-- Every kind but that of numbers and the end-of-input mark has its sample. -/
theorem Kind.suits_sampleText {kind : Kind} (notNumber : kind ≠ .number)
    (notMark : kind ≠ .endOfInput) : kind.Suits kind.sampleText.toList := by
  have isLexeme : ∃ first tail, kind.sampleText.toList = first :: tail ∧
      lexeme? first (tail ++ []) = some (kind, tail) := by
    cases kind with
    | number => exact absurd rfl notNumber
    | endOfInput => exact absurd rfl notMark
    | _ => exact ⟨_, _, rfl, by decide⟩
  obtain ⟨first, tail, same, found⟩ := isLexeme
  rw [same]
  exact (leads_of_lexeme? found).suits

end Token

namespace Grammar

/-- A token of a kind, at no place in particular. -/
def Terminal.sample (kind : Token.Kind) : Terminal kind :=
  ⟨⟨kind, kind.sampleText, .empty 0⟩, rfl⟩

/-- A terminal as a derivation. -/
def Terminal.tokens {kind : Token.Kind} (terminal : Terminal kind) : List Token :=
  [terminal.token]

/-- All tokens are written ones. -/
def AreWritten (tokens : List Token) : Prop :=
  ∀ token ∈ tokens, token.IsWritten

@[simp] theorem areWritten_nil : AreWritten [] ↔ True := by
  simp [AreWritten]

@[simp] theorem areWritten_cons (token : Token) (rest : List Token) :
    AreWritten (token :: rest) ↔ token.IsWritten ∧ AreWritten rest :=
  List.forall_mem_cons

@[simp] theorem areWritten_append (left right : List Token) :
    AreWritten (left ++ right) ↔ AreWritten left ∧ AreWritten right :=
  List.forall_mem_append

@[simp] theorem Terminal.isWritten_sample {kind : Token.Kind} (notNumber : kind ≠ .number)
    (notMark : kind ≠ .endOfInput) : (Terminal.sample kind).token.IsWritten :=
  Token.Kind.suits_sampleText notNumber notMark

/-! ## Beginnings -/

variable {δ ε : Type} {tokensOf : δ → List Token} {wholeTokens : ε → List Token}
  {before around : List Token}

/-- The tokens of some derivation begin like this and go on with written tokens. -/
def Begins (tokensOf : δ → List Token) (before : List Token) : Prop :=
  ∃ derivation completion, tokensOf derivation = before ++ completion ∧ AreWritten completion

/-- Every derivation begins with all of its tokens. -/
theorem Begins.whole (derivation : δ) : Begins tokensOf (tokensOf derivation) :=
  ⟨derivation, [], (List.append_nil _).symm, areWritten_nil.2 trivial⟩

/-- What is built around a derivation begins with what it has before it and a beginning of the
derivation. -/
theorem Begins.within (begins : Begins tokensOf before) (build : δ → ε) (back : List Token)
    (written : AreWritten back)
    (splits : ∀ derivation completion, tokensOf derivation = before ++ completion →
      wholeTokens (build derivation) = around ++ (completion ++ back)) :
    Begins wholeTokens around := by
  obtain ⟨derivation, completion, split, completionWritten⟩ := begins
  exact ⟨build derivation, completion ++ back, splits derivation completion split,
    (areWritten_append _ _).2 ⟨completionWritten, written⟩⟩

/-! ## The last statement -/

/-- Every statement may stand at the end. -/
theorem Statement.mayPrecede_endOfInput (derivation : Statement) :
    derivation.MayPrecede .endOfInput := by
  cases derivation with
  | unterminated value => exact fun atParen => nomatch atParen
  | _ => exact trivial

end Grammar

end NanoScript
