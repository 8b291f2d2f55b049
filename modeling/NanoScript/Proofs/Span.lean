import NanoScript.Span

/-!
Contract: ranges inside a text, and ranges moved along it.

Owns:
- ranges that lie inside a text of some size, and the smallest range around two of them;
- moving a range by a number of bytes, which commutes with taking the smallest range around two.
-/

namespace NanoScript.Span

/-- A range that does not end before it starts, and ends inside a text of `size` bytes. -/
structure Inside (size : Nat) (span : Span) : Prop where
  ordered : span.start ≤ span.stop
  bounded : span.stop ≤ size

instance (size : Nat) (span : Span) : Decidable (span.Inside size) :=
  decidable_of_iff (span.start ≤ span.stop ∧ span.stop ≤ size)
    ⟨fun both => ⟨both.1, both.2⟩, fun inside => ⟨inside.ordered, inside.bounded⟩⟩

theorem inside_empty {offset size : Nat} (bounded : offset ≤ size) : (empty offset).Inside size :=
  ⟨Nat.le_refl _, bounded⟩

theorem Inside.merge {size : Nat} {left right : Span} (leftInside : left.Inside size)
    (rightInside : right.Inside size) : (left.merge right).Inside size := by
  refine ⟨?_, Nat.max_le.2 ⟨leftInside.bounded, rightInside.bounded⟩⟩
  exact Nat.le_trans (Nat.min_le_left _ _)
    (Nat.le_trans leftInside.ordered (Nat.le_max_left _ _))

/-- The range that lies a number of bytes further on. -/
def move (distance : Nat) (span : Span) : Span :=
  ⟨span.start + distance, span.stop + distance⟩

theorem move_move (near far : Nat) (span : Span) :
    (span.move near).move far = span.move (near + far) := by
  unfold move
  rw [Nat.add_assoc, Nat.add_assoc]

theorem merge_move (distance : Nat) (left right : Span) :
    (left.move distance).merge (right.move distance) = (left.merge right).move distance := by
  unfold merge move
  rw [Nat.add_min_add_right, Nat.add_max_add_right]

end NanoScript.Span
