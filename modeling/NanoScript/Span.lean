/-!
Contract: ranges of byte offsets into a source text.

Owns:
- the range type, the smallest range around two others, and its written form.

Does not own: the text a range points into, or the line and column it falls on.
-/

namespace NanoScript

/-- The bytes of a source text from `start` up to, but not including, `stop`. -/
structure Span where
  start : Nat
  stop : Nat
deriving DecidableEq, Inhabited

namespace Span

/-- The range at one offset that holds no byte. -/
def empty (offset : Nat) : Span :=
  ⟨offset, offset⟩

/-- The smallest range that covers both ranges and whatever lies between them. -/
def merge (left right : Span) : Span :=
  ⟨min left.start right.start, max left.stop right.stop⟩

/-- How many bytes a range holds; a range that ends before it starts holds none. -/
def length (span : Span) : Nat :=
  span.stop - span.start

/-- The written form names both ends. -/
def text (span : Span) : String :=
  toString span.start ++ ".." ++ toString span.stop

end Span

end NanoScript
