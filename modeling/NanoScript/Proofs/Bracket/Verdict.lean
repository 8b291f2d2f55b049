import NanoScript.Proofs.Bracket.Word
import NanoScript.Proofs.Text.Place

/-!
Contract: what the verdict on a text says about the texts that begin with it.

Owns:
- a word that leaves nothing open is balanced, the converse of what balanced words do to the scan;
- texts that can be completed, and the text that completes one;
- the closing bracket behind which a text cannot be completed any more;
- the theorem that the verdict tells balanced texts, texts that can be completed and all others
  apart, and names that bracket of the last.

Completing a text is a matter of all texts that may follow.  The scan decides it without looking at
any: what follows matters only through the shapes that are open before it, and these can always be
closed one by one.
-/

namespace NanoScript.Bracket

/-! ## Words that close what is open -/

/-- A word closes shapes that are open before it, the innermost first, and balances apart from
that. -/
inductive Closes : List Shape → List Edge → Prop
  | nothing {word : List Edge} (balanced : Balanced word) : Closes [] word
  | next (shape : Shape) {others : List Shape} {inner rest : List Edge} (isInner : Balanced inner)
      (closesOthers : Closes others rest) :
      Closes (shape :: others) (inner ++ .closing shape :: rest)

theorem Closes.prepend {openShapes : List Shape} {first rest : List Edge} (isFirst : Balanced first)
    (closes : Closes openShapes rest) : Closes openShapes (first ++ rest) := by
  cases closes with
  | nothing balanced => exact .nothing (isFirst.append balanced)
  | next shape isInner closesOthers =>
      rw [← List.append_assoc]
      exact .next shape (isFirst.append isInner) closesOthers

/-- A shape that is opened in front of a word which closes it is not open before. -/
theorem Closes.opening {shape : Shape} {openShapes : List Shape} {rest : List Edge}
    (closes : Closes (shape :: openShapes) rest) :
    Closes openShapes (.opening shape :: rest) := by
  cases closes with
  | @next _ _ inner later isInner closesOthers =>
      have enclosed : Balanced (.opening shape :: (inner ++ [.closing shape])) :=
        .enclosed shape isInner .nil
      have whole := closesOthers.prepend enclosed
      simpa using whole

/-- What leaves nothing open closes all that was open. -/
theorem closes_of_leftOpen {openShapes : List Shape} {word : List Edge}
    (closed : leftOpen openShapes word = some []) : Closes openShapes word := by
  induction word generalizing openShapes with
  | nil =>
      cases closed
      exact .nothing .nil
  | cons edge rest inductionHypothesis =>
      cases edge with
      | opening shape => exact (inductionHypothesis closed).opening
      | closing shape =>
          cases openShapes with
          | nil => cases closed
          | cons innermost others =>
              simp only [leftOpen] at closed
              split at closed
              · next same =>
                  subst same
                  exact .next innermost .nil (inductionHypothesis closed)
              · cases closed

/-- The balanced words are those that leave nothing open. -/
theorem balanced_iff (word : List Edge) : Balanced word ↔ leftOpen [] word = some [] := by
  constructor
  · exact fun balanced => balanced.leftOpen_eq []
  · intro closed
    cases closes_of_leftOpen closed with
    | nothing balanced => exact balanced

/-! ## Texts that can be completed -/

/-- Some text behind a text makes its brackets balance. -/
def Completable (text : List Char) : Prop :=
  ∃ later : List Char, Balanced (edges (text ++ later))

/-- A beginning of a text that can be completed can be completed. -/
theorem Completable.left {before after : List Char} (completable : Completable (before ++ after)) :
    Completable before := by
  obtain ⟨later, balanced⟩ := completable
  rw [List.append_assoc] at balanced
  exact ⟨after ++ later, balanced⟩

/-- The character that closes a shape. -/
def Shape.closing : Shape → Char
  | .round => ')'
  | .square => ']'
  | .curly => '\x7d'

theorem edge?_closing (shape : Shape) : edge? shape.closing = some (.closing shape) := by
  cases shape <;> rfl

theorem edges_closing_cons (shape : Shape) (rest : List Char) :
    edges (shape.closing :: rest) = .closing shape :: edges rest := by
  rw [edges_cons, edge?_closing]
  rfl

/-- Closing the open shapes one by one leaves nothing open. -/
theorem leftOpen_closings (openShapes : List Shape) :
    leftOpen openShapes (edges (openShapes.map Shape.closing)) = some [] := by
  induction openShapes with
  | nil => rfl
  | cons innermost others inductionHypothesis =>
      rw [List.map_cons, edges_closing_cons]
      simpa [leftOpen] using inductionHypothesis

/-- A text can be completed just if each closing bracket in it has a partner before it. -/
theorem completable_iff (text : List Char) :
    Completable text ↔ ∃ behind, leftOpen [] (edges text) = some behind := by
  constructor
  · rintro ⟨later, balanced⟩
    rw [edges_append] at balanced
    exact balanced.exists_leftOpen_of_prefix
  · rintro ⟨behind, isOpen⟩
    refine ⟨behind.map Shape.closing, (balanced_iff _).2 ?_⟩
    rw [edges_append, leftOpen_append, isOpen]
    exact leftOpen_closings behind

/-! ## The bracket that a verdict names -/

/-- A closing bracket at a byte offset is the first one behind which a text cannot be completed any
more. -/
def FirstBeyondRepair (text : List Char) (closing : Char) (offset : Nat) : Prop :=
  ∃ before after, text = before ++ closing :: after ∧ Text.byteLength before = offset ∧
    (closed? closing).isSome = true ∧ ¬ Completable (before ++ [closing]) ∧
    ∀ earlier c between, before = earlier ++ c :: between → (closed? c).isSome = true →
      Completable (earlier ++ [c])

/-- There is only one such bracket. -/
theorem FirstBeyondRepair.unique {text : List Char} {closing other : Char} {offset place : Nat}
    (first : FirstBeyondRepair text closing offset) (second : FirstBeyondRepair text other place) :
    closing = other ∧ offset = place := by
  obtain ⟨before, after, rfl, rfl, closes, beyond, earlierDo⟩ := first
  obtain ⟨otherBefore, otherAfter, same, rfl, otherCloses, otherBeyond, otherEarlierDo⟩ := second
  rcases Text.place_cases same with ⟨rfl, rfl, _⟩ | ⟨between, split, _⟩ | ⟨between, split, _⟩
  · exact ⟨rfl, rfl⟩
  · exact absurd (otherEarlierDo before closing between split closes) beyond
  · exact absurd (earlierDo otherBefore other between split otherCloses) otherBeyond

/-- A closing bracket at a byte offset closes none of the shapes that are open before it, while
every closing bracket before it closes one. -/
def Mismatches (openShapes : List Shape) (offset : Nat) (text : List Char) (closing : Char)
    (place : Nat) : Prop :=
  ∃ before after behind, text = before ++ closing :: after ∧
    offset + Text.byteLength before = place ∧ (closed? closing).isSome = true ∧
    leftOpen openShapes (edges before) = some behind ∧ leftOpen behind (edges [closing]) = none

theorem Mismatches.here {openShapes : List Shape} {offset : Nat} {c : Char} {shape : Shape}
    {rest : List Char} (closes : closed? c = some shape)
    (unmatched : leftOpen openShapes [.closing shape] = none) :
    Mismatches openShapes offset (c :: rest) c offset := by
  refine ⟨[], rest, openShapes, rfl, rfl, by rw [closes]; rfl, rfl, ?_⟩
  rw [edges_cons, edge?_of_closed closes]
  exact unmatched

/-- A character that the scan passes only adds its edge to those before the bracket. -/
theorem Mismatches.behind {openShapes nextShapes : List Shape} {offset place : Nat}
    {c closing : Char} {rest : List Char}
    (step : ∀ word, leftOpen openShapes ((edge? c).toList ++ word) = leftOpen nextShapes word)
    (later : Mismatches nextShapes (offset + c.utf8Size) rest closing place) :
    Mismatches openShapes offset (c :: rest) closing place := by
  obtain ⟨before, after, behind, rfl, rfl, closes, isOpen, unmatched⟩ := later
  refine ⟨c :: before, after, behind, rfl, ?_, closes, ?_, unmatched⟩
  · rw [Text.byteLength_cons, Nat.add_assoc]
  · rw [edges_cons, step]
    exact isOpen

theorem mismatches_of_judgeFrom {openShapes : List Shape} {offset : Nat} {text : List Char}
    {closing : Char} {place : Nat}
    (verdict : judgeFrom openShapes offset text = .unmatched closing place) :
    Mismatches openShapes offset text closing place := by
  induction text generalizing openShapes offset with
  | nil =>
      unfold judgeFrom at verdict
      split at verdict <;> cases verdict
  | cons c rest inductionHypothesis =>
      unfold judgeFrom at verdict
      cases opens : opened? c with
      | some shape =>
          rw [opens] at verdict
          refine (inductionHypothesis verdict).behind fun word => ?_
          rw [edge?_of_opened opens]
          rfl
      | none =>
          cases closes : closed? c with
          | none =>
              rw [opens, closes] at verdict
              refine (inductionHypothesis verdict).behind fun word => ?_
              rw [edge?_of_neither opens closes]
              rfl
          | some shape =>
              rw [opens, closes] at verdict
              cases openShapes with
              | nil =>
                  cases verdict
                  exact .here closes rfl
              | cons innermost others =>
                  simp only at verdict
                  split at verdict
                  · next same =>
                      refine (inductionHypothesis verdict).behind fun word => ?_
                      rw [edge?_of_closed closes]
                      exact if_pos same
                  · next differs =>
                      cases verdict
                      exact .here closes (if_neg differs)

/-- The bracket that a verdict names is the first behind which the text cannot be completed. -/
theorem firstBeyondRepair_of_judge {text : String} {closing : Char} {offset : Nat}
    (verdict : judge text = .unmatched closing offset) :
    FirstBeyondRepair text.toList closing offset := by
  obtain ⟨before, after, behind, split, place, closes, isOpen, unmatched⟩ :=
    mismatches_of_judgeFrom verdict
  rw [Nat.zero_add] at place
  refine ⟨before, after, split, place, closes, ?_, ?_⟩
  · intro completable
    obtain ⟨others, isOpenBehind⟩ := (completable_iff _).1 completable
    rw [edges_append, leftOpen_append, isOpen] at isOpenBehind
    exact absurd (unmatched.symm.trans isOpenBehind) nofun
  · rintro earlier c between rfl _
    have completable : Completable (earlier ++ c :: between) := (completable_iff _).2 ⟨_, isOpen⟩
    rw [List.append_cons] at completable
    exact completable.left

/-! ## Verdicts -/

/-- A text is found unfinished just if it is not complete and can be completed. -/
theorem judge_eq_unfinished_iff (text : String) :
    judge text = .unfinished ↔ ¬ Balanced (edges text.toList) ∧ Completable text.toList := by
  have tells := judge_tells text
  rw [balanced_iff, completable_iff]
  revert tells
  cases judge text with
  | balanced =>
      intro tells
      rw [show leftOpen [] (edges text.toList) = some [] from tells]
      simp
  | unfinished =>
      rintro ⟨innermost, others, isOpen⟩
      simp [isOpen]
  | unmatched closing offset =>
      intro tells
      rw [show leftOpen [] (edges text.toList) = none from tells]
      simp

/-- A text that cannot be completed is found to have a closing bracket without a partner. -/
theorem exists_unmatched {text : String} (hopeless : ¬ Completable text.toList) :
    ∃ closing offset, judge text = .unmatched closing offset := by
  rw [completable_iff] at hopeless
  have tells := judge_tells text
  cases verdict : judge text with
  | balanced =>
      rw [verdict] at tells
      exact absurd ⟨_, tells⟩ hopeless
  | unfinished =>
      rw [verdict] at tells
      obtain ⟨innermost, others, isOpen⟩ := tells
      exact absurd ⟨_, isOpen⟩ hopeless
  | unmatched closing offset => exact ⟨closing, offset, rfl⟩

theorem FirstBeyondRepair.not_completable {text : List Char} {closing : Char} {offset : Nat}
    (first : FirstBeyondRepair text closing offset) : ¬ Completable text := by
  obtain ⟨before, after, rfl, _, _, beyond, _⟩ := first
  rw [List.append_cons]
  exact fun completable => beyond completable.left

/-- The verdict on a text is that it balances, that it can be completed, or else which closing
bracket is the first behind which it cannot be completed any more. -/
theorem judge_decides_completion (text : String) :
    (judge text = .balanced ↔ Balanced (edges text.toList)) ∧
      (judge text = .unfinished ↔ ¬ Balanced (edges text.toList) ∧ Completable text.toList) ∧
      (∀ closing offset, judge text = .unmatched closing offset ↔
        FirstBeyondRepair text.toList closing offset) ∧
      (¬ Completable text.toList → ∃ closing offset, judge text = .unmatched closing offset ∧
        (judge text).message? =
          some ("  - Unmatched '" ++ closing.toString ++ "' at position " ++
            toString offset)) := by
  refine ⟨?_, judge_eq_unfinished_iff text, fun closing offset => ⟨firstBeyondRepair_of_judge, ?_⟩,
    fun hopeless => ?_⟩
  · rw [judge_eq_balanced_iff, balanced_iff]
  · intro first
    obtain ⟨named, place, verdict⟩ := exists_unmatched first.not_completable
    obtain ⟨rfl, rfl⟩ := (firstBeyondRepair_of_judge verdict).unique first
    exact verdict
  · obtain ⟨closing, offset, verdict⟩ := exists_unmatched hopeless
    refine ⟨closing, offset, verdict, ?_⟩
    simp only [verdict, Verdict.message?, Verdict.complaint?, Option.map_some,
      ← String.append_assoc]
    rfl

example : judge "(é]" = .unmatched ']' 3 := by
  decide +kernel

end NanoScript.Bracket
