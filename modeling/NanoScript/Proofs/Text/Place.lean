import NanoScript.Text.Bytes

/-!
Contract: places in a text, which are the splits of the text around one of its characters.

Owns:
- two places of one list are the same, or one of them lies before the other;
- a byte offset fixes the place that it belongs to.
-/

namespace NanoScript.Text

section Lists

variable {α : Type} {front back otherFront otherBack : List α} {item other : α}

/-- Of two places in a list that differ, the one lies behind the other. -/
theorem place_cases (same : front ++ item :: back = otherFront ++ other :: otherBack) :
    (front = otherFront ∧ item = other ∧ back = otherBack) ∨
      (∃ between, otherFront = front ++ item :: between ∧ back = between ++ other :: otherBack) ∨
        ∃ between, front = otherFront ++ other :: between ∧ otherBack = between ++ item :: back := by
  rcases List.append_eq_append_iff.1 same with ⟨between, rfl, tails⟩ | ⟨between, rfl, tails⟩
  · cases between with
    | nil =>
        simp only [List.nil_append, List.cons.injEq] at tails
        exact .inl ⟨by simp, tails⟩
    | cons head rest =>
        simp only [List.cons_append, List.cons.injEq] at tails
        obtain ⟨rfl, rfl⟩ := tails
        exact .inr (.inl ⟨rest, rfl, rfl⟩)
  · cases between with
    | nil =>
        simp only [List.nil_append, List.cons.injEq] at tails
        exact .inl ⟨by simp, tails.1.symm, tails.2.symm⟩
    | cons head rest =>
        simp only [List.cons_append, List.cons.injEq] at tails
        obtain ⟨rfl, rfl⟩ := tails
        exact .inr (.inr ⟨rest, rfl, rfl⟩)

/-- A place in a list is its head or a place in its tail. -/
theorem exists_place_cons {first : α} {rest : List α} {holds : List α → α → Prop} :
    (∃ front item back, first :: rest = front ++ item :: back ∧ holds front item) ↔
      holds [] first ∨
        ∃ front item back, rest = front ++ item :: back ∧ holds (first :: front) item := by
  constructor
  · rintro ⟨front, item, back, split, here⟩
    cases front with
    | nil =>
        obtain ⟨rfl, rfl⟩ := List.cons.inj split
        exact .inl here
    | cons head front =>
        obtain ⟨rfl, rfl⟩ := List.cons.inj split
        exact .inr ⟨front, item, back, rfl, here⟩
  · rintro (atHead | ⟨front, item, back, rfl, inRest⟩)
    · exact ⟨[], first, rest, rfl, atHead⟩
    · exact ⟨first :: front, item, back, rfl, inRest⟩

end Lists

/-- Two places at one byte offset are the same place. -/
theorem place_unique {before after otherBefore otherAfter : List Char} {c other : Char}
    (same : before ++ c :: after = otherBefore ++ other :: otherAfter)
    (offsets : byteLength before = byteLength otherBefore) :
    before = otherBefore ∧ c = other ∧ after = otherAfter := by
  have positive := c.utf8Size_pos
  have otherPositive := other.utf8Size_pos
  rcases place_cases same with here | ⟨between, rfl, _⟩ | ⟨between, rfl, _⟩
  · exact here
  · simp only [byteLength_append, byteLength_cons] at offsets
    omega
  · simp only [byteLength_append, byteLength_cons] at offsets
    omega

end NanoScript.Text
