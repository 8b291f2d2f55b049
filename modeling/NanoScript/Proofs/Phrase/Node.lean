import NanoScript.Phrase.Basic

/-!
Contract: the nodes of a program as a tree.

Owns:
- nodes, which are phrases and the entries of object literals, each with the bytes it covers;
- the children of a node in the order of the source, and what occurs in a node at any depth.

An entry stands between an object literal and the value that it writes out, so that the value has
the entry as its parent.
-/

namespace NanoScript

/-- A node of a program. -/
inductive Node where
  | phrase (phrase : Phrase)
  | entry (entry : Entry)

namespace Node

/-- The bytes a node covers. -/
def span : Node → Span
  | .phrase whole => whole.span
  | .entry whole => whole.span

/-- The nodes directly inside a node, in the order of the source. -/
def children : Node → List Node
  | .phrase (.program body _) => body.map .phrase
  | .phrase (.variableDeclaration _ value _ _) => value.toList.map .phrase
  | .phrase (.functionDeclaration _ _ body _) => body.map .phrase
  | .phrase (.identifier ..) => []
  | .phrase (.numericLiteral ..) => []
  | .phrase (.binary left _ right _) => [.phrase left, .phrase right]
  | .phrase (.assignment target value _) => [.phrase target, .phrase value]
  | .phrase (.objectLiteral entries _) => entries.map .entry
  | .phrase (.call callee arguments _) => .phrase callee :: arguments.map .phrase
  | .phrase (.member object property _ _) => [.phrase object, .phrase property]
  | .entry whole => whole.value?.toList.map .phrase

/-- One node occurs in another: it is that node, or it occurs in a child of it. -/
inductive OccursIn (inner : Node) : Node → Prop
  | here : OccursIn inner inner
  | inChild {child whole : Node} (member : child ∈ whole.children) (occurs : OccursIn inner child) :
      OccursIn inner whole

end Node

end NanoScript
