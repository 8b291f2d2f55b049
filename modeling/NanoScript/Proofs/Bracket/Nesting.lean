import NanoScript.Bracket.Pair
import NanoScript.Proofs.Bracket.Word
import NanoScript.Proofs.Text.Place

/-!
Contract: which brackets of a text belong together.

Owns:
- the depth of a text, which counts the brackets that it opens against those that it closes;
- level texts, in which every bracket has a partner, whatever the shapes of the two;
- matched pairs: two brackets of one shape with a level text between them;
- the theorem that two matched pairs of one text lie apart, or one of them inside the other.

Does not own: how the pairs of a text are found.

A bracket of a wrong shape uses up the bracket that it stands against, so that levels are counted
without regard to shapes, and only the two outer brackets of a pair have to agree.  All that is said
about two pairs follows from depth: no beginning of a level text has a depth below zero, and no end
of it one above.
-/

namespace NanoScript.Bracket

/-! ## Depth -/

/-- How much deeper a text is behind a character than before it. -/
def lift (c : Char) : Int :=
  match edge? c with
  | some (.opening _) => 1
  | some (.closing _) => -1
  | none => 0

theorem lift_of_opened {c : Char} {shape : Shape} (opens : opened? c = some shape) :
    lift c = 1 := by
  rw [lift, edge?_of_opened opens]

theorem lift_of_closed {c : Char} {shape : Shape} (closes : closed? c = some shape) :
    lift c = -1 := by
  rw [lift, edge?_of_closed closes]

/-- How many more brackets a text opens than it closes. -/
def depth : List Char → Int
  | [] => 0
  | c :: rest => lift c + depth rest

@[simp] theorem depth_nil : depth [] = 0 :=
  rfl

@[simp] theorem depth_cons (c : Char) (rest : List Char) :
    depth (c :: rest) = lift c + depth rest :=
  rfl

@[simp] theorem depth_append (left right : List Char) :
    depth (left ++ right) = depth left + depth right := by
  induction left with
  | nil => simp
  | cons c rest inductionHypothesis =>
      rw [List.cons_append, depth_cons, depth_cons, inductionHypothesis]
      omega

/-! ## Level texts -/

/-- A text every bracket of which has a partner in it, whatever the shapes of the two. -/
inductive Level : List Char → Prop
  | nil : Level []
  | plain {c : Char} {rest : List Char} (noBracket : edge? c = none) (isRest : Level rest) :
      Level (c :: rest)
  | enclosed {opening closing : Char} {left right : Shape} {inner rest : List Char}
      (opens : opened? opening = some left) (closes : closed? closing = some right)
      (isInner : Level inner) (isRest : Level rest) :
      Level (opening :: (inner ++ closing :: rest))

namespace Level

theorem append {left right : List Char} (isLeft : Level left) (isRight : Level right) :
    Level (left ++ right) := by
  induction isLeft with
  | nil => exact isRight
  | plain noBracket _ inductionHypothesis => exact .plain noBracket inductionHypothesis
  | enclosed opens closes isInner _ _ restHypothesis =>
      rw [List.cons_append, List.append_assoc, List.cons_append]
      exact .enclosed opens closes isInner restHypothesis

theorem depth_eq {text : List Char} (isLevel : Level text) : depth text = 0 := by
  induction isLevel with
  | nil => rfl
  | @plain c rest noBracket _ inductionHypothesis =>
      have flat : lift c = 0 := by rw [lift, noBracket]
      rw [depth_cons, flat, inductionHypothesis]
      rfl
  | enclosed opens closes _ _ innerHypothesis restHypothesis =>
      simp only [depth_cons, depth_append, lift_of_opened opens, lift_of_closed closes,
        innerHypothesis, restHypothesis]
      omega

/-- No beginning of a level text closes a bracket that it does not open. -/
theorem depth_left {before after : List Char} (isLevel : Level (before ++ after)) :
    0 ≤ depth before := by
  generalize whole : before ++ after = text at isLevel
  induction isLevel generalizing before after with
  | nil =>
      obtain ⟨rfl, _⟩ := List.append_eq_nil_iff.1 whole
      exact Int.le_refl 0
  | @plain c rest noBracket _ inductionHypothesis =>
      cases before with
      | nil => exact Int.le_refl 0
      | cons head before =>
          obtain ⟨rfl, split⟩ := List.cons.inj whole
          have flat : lift head = 0 := by rw [lift, noBracket]
          rw [depth_cons, flat, Int.zero_add]
          exact inductionHypothesis split
  | @enclosed opening closing _ _ inner rest opens closes isInner _ innerHypothesis
      restHypothesis =>
      cases before with
      | nil => exact Int.le_refl 0
      | cons head before =>
          obtain ⟨rfl, split⟩ := List.cons.inj whole
          rw [depth_cons, lift_of_opened opens]
          rcases List.append_eq_append_iff.1 split with
            ⟨further, rfl, _⟩ | ⟨further, rfl, behind⟩
          · -- The beginning ends between the two brackets.
            have inside := innerHypothesis rfl
            omega
          · cases further with
            | nil =>
                rw [List.append_nil, isInner.depth_eq]
                omega
            | cons next further =>
                obtain ⟨rfl, later⟩ := List.cons.inj behind
                have outside := restHypothesis later.symm
                simp only [depth_append, depth_cons, isInner.depth_eq, lift_of_closed closes]
                omega

/-- No end of a level text opens a bracket that it does not close. -/
theorem depth_right {before after : List Char} (isLevel : Level (before ++ after)) :
    depth after ≤ 0 := by
  have whole := isLevel.depth_eq
  have beginning := isLevel.depth_left
  rw [depth_append] at whole
  omega

/-- A bracket that closes nothing before it in a level text is none of its brackets. -/
theorem not_closed_behind {before after : List Char} {c : Char} {shape : Shape}
    (isLevel : Level (before ++ c :: after)) (closes : closed? c = some shape) :
    ¬ Level before := by
  intro isBefore
  rw [List.append_cons] at isLevel
  have beginning := isLevel.depth_left
  rw [depth_append, isBefore.depth_eq, depth_cons, lift_of_closed closes, depth_nil] at beginning
  omega

/-- A bracket that opens nothing behind it in a level text is none of its brackets. -/
theorem not_opened_before {before after : List Char} {c : Char} {shape : Shape}
    (isLevel : Level (before ++ c :: after)) (opens : opened? c = some shape) :
    ¬ Level after := by
  intro isAfter
  have ending := isLevel.depth_right
  rw [depth_cons, lift_of_opened opens, isAfter.depth_eq] at ending
  omega

end Level

/-! ## Matched pairs -/

namespace Pair

/-- The offsets of an opening bracket of a text and of a closing one of its shape, with a level text
between them. -/
def MatchedIn (text : List Char) (pair : Pair) : Prop :=
  ∃ before inner after opening closing shape,
    text = before ++ opening :: (inner ++ closing :: after) ∧
      opened? opening = some shape ∧ closed? closing = some shape ∧ Level inner ∧
      pair.opening = Text.byteLength before ∧
      pair.closing = Text.byteLength (before ++ opening :: inner)

/-- The brackets of one pair stand before those of another. -/
def Precedes (first second : Pair) : Prop :=
  first.closing < second.opening

/-- The brackets of one pair stand around those of another. -/
def Encloses (outer inner : Pair) : Prop :=
  outer.opening < inner.opening ∧ inner.closing < outer.closing

/-- Two pairs have no bracket in common, and they do not cross. -/
def Apart (first second : Pair) : Prop :=
  first.Precedes second ∨ second.Precedes first ∨ first.Encloses second ∨ second.Encloses first

theorem Apart.symm {first second : Pair} (apart : first.Apart second) : second.Apart first := by
  rcases apart with before | behind | around | within
  · exact .inr (.inl before)
  · exact .inl behind
  · exact .inr (.inr (.inr around))
  · exact .inr (.inr (.inl within))

/-- One of the brackets of a pair is at a byte offset. -/
def StandsAt (pair : Pair) (offset : Nat) : Prop :=
  offset = pair.opening ∨ offset = pair.closing

instance (pair : Pair) (offset : Nat) : Decidable (pair.StandsAt offset) :=
  inferInstanceAs (Decidable (offset = pair.opening ∨ offset = pair.closing))

theorem MatchedIn.opening_lt_closing {text : List Char} {pair : Pair}
    (matched : pair.MatchedIn text) : pair.opening < pair.closing := by
  obtain ⟨before, inner, _, opening, _, _, _, _, _, _, opensAt, closesAt⟩ := matched
  have positive := opening.utf8Size_pos
  rw [Text.byteLength_append, Text.byteLength_cons] at closesAt
  omega

/-- Two matched pairs of which the first opens in front of the second. -/
theorem apart_of_behind {before rest inner after otherInner otherAfter : List Char}
    {opening closing otherOpening otherClosing : Char} {shape otherShape : Shape}
    (split : inner ++ closing :: after =
      rest ++ otherOpening :: (otherInner ++ otherClosing :: otherAfter))
    (closes : closed? closing = some shape) (otherOpens : opened? otherOpening = some otherShape)
    (isLevel : Level inner) (otherIsLevel : Level otherInner) :
    Apart ⟨Text.byteLength before, Text.byteLength (before ++ opening :: inner)⟩
      ⟨Text.byteLength (before ++ opening :: rest),
        Text.byteLength (before ++ opening :: rest ++ otherOpening :: otherInner)⟩ := by
  have positive := opening.utf8Size_pos
  have otherPositive := otherOpening.utf8Size_pos
  have closingPositive := closing.utf8Size_pos
  have otherClosingPositive := otherClosing.utf8Size_pos
  rcases Text.place_cases split with ⟨_, rfl, _⟩ | ⟨between, rfl, _⟩ | ⟨between, rfl, tails⟩
  · rw [closed?_eq_none_of_opened? otherOpens] at closes
    cases closes
  · -- The second pair opens behind the end of the first.
    refine .inl ?_
    simp only [Precedes, Text.byteLength_append, Text.byteLength_cons]
    omega
  · rcases Text.place_cases tails with ⟨rfl, _, _⟩ | ⟨further, rfl, _⟩ | ⟨further, rfl, _⟩
    · exact absurd otherIsLevel (isLevel.not_opened_before otherOpens)
    · refine .inr (.inr (.inl ?_))
      simp only [Encloses, Text.byteLength_append, Text.byteLength_cons]
      omega
    · -- The second pair would close behind the end of the first: what lies between its opening
      -- bracket and that end begins a level text, and behind that bracket it ends another one.
      have beginning := otherIsLevel.depth_left
      have ending := isLevel.depth_right
      rw [depth_cons, lift_of_opened otherOpens] at ending
      omega

/-- Two matched pairs of one text are the same, or they have no bracket in common and do not
cross. -/
theorem MatchedIn.eq_or_apart {text : List Char} {first second : Pair}
    (isFirst : first.MatchedIn text) (isSecond : second.MatchedIn text) :
    first = second ∨ first.Apart second := by
  obtain ⟨first, firstEnd⟩ := first
  obtain ⟨second, secondEnd⟩ := second
  obtain ⟨before, inner, after, opening, closing, shape, rfl, opens, closes, isLevel, rfl, rfl⟩ :=
    isFirst
  obtain ⟨otherBefore, otherInner, otherAfter, otherOpening, otherClosing, otherShape, same,
    otherOpens, otherCloses, otherIsLevel, rfl, rfl⟩ := isSecond
  rcases Text.place_cases same with
    ⟨rfl, rfl, tails⟩ | ⟨between, rfl, tails⟩ | ⟨between, rfl, tails⟩
  · rcases Text.place_cases tails with ⟨rfl, _, _⟩ | ⟨further, rfl, _⟩ | ⟨further, rfl, _⟩
    · exact .inl rfl
    · exact absurd isLevel (otherIsLevel.not_closed_behind closes)
    · exact absurd otherIsLevel (isLevel.not_closed_behind otherCloses)
  · exact .inr (apart_of_behind tails closes otherOpens isLevel otherIsLevel)
  · exact .inr (apart_of_behind tails otherCloses opens otherIsLevel isLevel).symm

/-- Two matched pairs that lie apart have no bracket in common. -/
theorem Apart.not_both_standAt {text : List Char} {first second : Pair} {offset : Nat}
    (apart : first.Apart second) (isFirst : first.MatchedIn text)
    (isSecond : second.MatchedIn text) : ¬ (first.StandsAt offset ∧ second.StandsAt offset) := by
  have firstOrder := isFirst.opening_lt_closing
  have secondOrder := isSecond.opening_lt_closing
  simp only [StandsAt, Apart, Precedes, Encloses] at apart ⊢
  omega

end Pair

end NanoScript.Bracket
