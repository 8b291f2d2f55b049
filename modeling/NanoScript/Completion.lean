import NanoScript.Scope.Basic
import NanoScript.Text.Bytes
import NanoScript.Token.Basic

/-!
Contract: the names that a word under the cursor can be completed to.

Owns:
- the word that ends at the cursor: as many letters as there are in front of it;
- its completions: the longer names, visible ones and keywords alike, that begin with it.
-/

namespace NanoScript

/-- The byte offset of the word to complete and what it can become, in ascending order. -/
structure Completion where
  start : Nat
  names : List String
deriving DecidableEq

namespace Completion

/-- The words that start declarations. -/
def keywords : List String :=
  ["let", "const", "fn"]

/-- The letters at the end of a text. -/
def lastWord (text : List Char) : List Char :=
  (text.reverse.takeWhile Token.isLetter).reverse

/-- Whether a name begins with a word and goes on behind it. -/
def extendsWord (word : List Char) (name : String) : Bool :=
  word.isPrefixOf name.toList && decide (name.toList ≠ word)

/-- The names visible in a scope and the keywords, each once and in ascending order. -/
def candidates (store : Store) (scope : ScopeId) : List String :=
  Table.sortedNames (store.visibleNames scope ++ keywords)

end Completion

/-- The completions of the word that ends at a byte offset of a line. -/
def complete (store : Store) (scope : ScopeId) (line : String) (cursor : Nat) : Completion :=
  let word := Completion.lastWord (Text.splitAtByte cursor line.toList).1
  ⟨cursor - Text.byteLength word,
    if word = [] then []
    else (Completion.candidates store scope).filter (Completion.extendsWord word)⟩

end NanoScript
