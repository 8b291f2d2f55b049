import Mathlib.Data.List.Induction
import NanoScript.Proofs.Bracket.Nesting

/-!
Contract: the pairs that the scan of a text finds are its matched pairs.

Owns:
- the brackets that are open at a place of a text, and the pair that a character closes there;
- the theorem that the pairs of a text are its matched pairs, in the order in which they are closed;
- which pair is found at a cursor, if it touches several.

A pair that closes right before the cursor is preferred to the one that the cursor stands on, since
of the pairs that a cursor touches the one that is closed first is found.
-/

namespace NanoScript.Bracket

/-! ## One character -/

/-- The brackets that are open behind a character at a byte offset, if those given are open before
it, the innermost first. -/
def openBehind (openBrackets : List (Shape × Nat)) (offset : Nat) (c : Char) :
    List (Shape × Nat) :=
  match edge? c with
  | some (.opening shape) => (shape, offset) :: openBrackets
  | some (.closing _) => openBrackets.tail
  | none => openBrackets

theorem openBehind_of_opened {c : Char} {shape : Shape} (opens : opened? c = some shape)
    (openBrackets : List (Shape × Nat)) (offset : Nat) :
    openBehind openBrackets offset c = (shape, offset) :: openBrackets := by
  rw [openBehind, edge?_of_opened opens]

theorem openBehind_of_closed {c : Char} {shape : Shape} (closes : closed? c = some shape)
    (openBrackets : List (Shape × Nat)) (offset : Nat) :
    openBehind openBrackets offset c = openBrackets.tail := by
  rw [openBehind, edge?_of_closed closes]

theorem openBehind_of_plain {c : Char} (noBracket : edge? c = none)
    (openBrackets : List (Shape × Nat)) (offset : Nat) :
    openBehind openBrackets offset c = openBrackets := by
  rw [openBehind, noBracket]

/-- A character at a byte offset closes a pair: the innermost open bracket is of its shape. -/
def ClosesPair (openBrackets : List (Shape × Nat)) (offset : Nat) (c : Char) (pair : Pair) : Prop :=
  ∃ shape opening others, closed? c = some shape ∧ openBrackets = (shape, opening) :: others ∧
    pair = ⟨opening, offset⟩

/-- The scan of a text first finds the pair that its first character closes, if it closes one. -/
theorem pairsFrom_cons (openBrackets : List (Shape × Nat)) (offset : Nat) (c : Char)
    (rest : List Char) :
    (∃ pair, ClosesPair openBrackets offset c pair ∧
      pairsFrom openBrackets offset (c :: rest) =
        pair :: pairsFrom (openBehind openBrackets offset c) (offset + c.utf8Size) rest) ∨
    ((∀ pair, ¬ ClosesPair openBrackets offset c pair) ∧
      pairsFrom openBrackets offset (c :: rest) =
        pairsFrom (openBehind openBrackets offset c) (offset + c.utf8Size) rest) := by
  cases opens : opened? c with
  | some shape =>
      refine .inr ⟨?_, ?_⟩
      · rintro pair ⟨_, _, _, closes, _⟩
        rw [closed?_eq_none_of_opened? opens] at closes
        cases closes
      · rw [openBehind_of_opened opens]
        simp only [pairsFrom, opens]
  | none =>
      cases closes : closed? c with
      | none =>
          refine .inr ⟨?_, ?_⟩
          · rintro pair ⟨_, _, _, closes', _⟩
            cases closes.symm.trans closes'
          · rw [openBehind_of_plain (edge?_of_neither opens closes)]
            simp only [pairsFrom, opens, closes]
      | some shape =>
          rw [openBehind_of_closed closes]
          simp only [pairsFrom, opens, closes]
          cases openBrackets with
          | nil =>
              refine .inr ⟨?_, rfl⟩
              rintro pair ⟨_, _, _, _, isOpen, _⟩
              cases isOpen
          | cons top others =>
              obtain ⟨innermost, opening⟩ := top
              by_cases same : innermost = shape
              · subst same
                exact .inl ⟨⟨opening, offset⟩, ⟨innermost, opening, others, closes, rfl, rfl⟩,
                  if_pos rfl⟩
              · refine .inr ⟨?_, if_neg same⟩
                rintro pair ⟨shape', _, _, closes', isOpen, _⟩
                cases closes.symm.trans closes'
                cases isOpen
                exact same rfl

/-! ## A whole text -/

/-- The brackets that are open behind a text, if those given are open before it. -/
def openAfter (openBrackets : List (Shape × Nat)) (offset : Nat) : List Char → List (Shape × Nat)
  | [] => openBrackets
  | c :: rest => openAfter (openBehind openBrackets offset c) (offset + c.utf8Size) rest

theorem openAfter_append (openBrackets : List (Shape × Nat)) (offset : Nat)
    (left right : List Char) :
    openAfter openBrackets offset (left ++ right) =
      openAfter (openAfter openBrackets offset left) (offset + Text.byteLength left) right := by
  induction left generalizing openBrackets offset with
  | nil => rfl
  | cons c rest inductionHypothesis =>
      rw [List.cons_append, openAfter, inductionHypothesis, openAfter, Text.byteLength_cons,
        Nat.add_assoc]

/-- A level text leaves open what was open before it. -/
theorem Level.openAfter_eq {text : List Char} (isLevel : Level text)
    (openBrackets : List (Shape × Nat)) (offset : Nat) :
    openAfter openBrackets offset text = openBrackets := by
  induction isLevel generalizing openBrackets offset with
  | nil => rfl
  | plain noBracket _ inductionHypothesis =>
      rw [openAfter, openBehind_of_plain noBracket]
      exact inductionHypothesis _ _
  | enclosed opens closes _ _ innerHypothesis restHypothesis =>
      rw [openAfter, openBehind_of_opened opens, openAfter_append, innerHypothesis, openAfter,
        openBehind_of_closed closes]
      exact restHypothesis _ _

/-- A pair that the scan of a text finds is closed by a character at one of its places. -/
theorem mem_pairsFrom {openBrackets : List (Shape × Nat)} {offset : Nat} {text : List Char}
    {pair : Pair} :
    pair ∈ pairsFrom openBrackets offset text ↔
      ∃ before c after, text = before ++ c :: after ∧
        ClosesPair (openAfter openBrackets offset before) (offset + Text.byteLength before) c
          pair := by
  induction text generalizing openBrackets offset with
  | nil => simp [pairsFrom]
  | cons first rest inductionHypothesis =>
      have inRest :
          (∃ before c after, rest = before ++ c :: after ∧
            ClosesPair (openAfter openBrackets offset (first :: before))
              (offset + Text.byteLength (first :: before)) c pair) ↔
          pair ∈ pairsFrom (openBehind openBrackets offset first) (offset + first.utf8Size)
            rest := by
        simp only [inductionHypothesis, openAfter, Text.byteLength_cons, Nat.add_assoc]
      rw [Text.exists_place_cons, inRest]
      rcases pairsFrom_cons openBrackets offset first rest with
        ⟨found, closes, equation⟩ | ⟨none, equation⟩
      · rw [equation, List.mem_cons]
        refine or_congr_left ⟨?_, ?_⟩
        · rintro rfl
          exact closes
        · rintro ⟨shape, opening, others, _, isOpen, rfl⟩
          obtain ⟨_, _, _, _, isOpen', rfl⟩ := closes
          cases isOpen.symm.trans isOpen'
          rfl
      · rw [equation]
        exact (or_iff_right (none pair)).symm

/-- The pairs of a text come in the order of their closing brackets. -/
theorem pairsFrom_ascending (openBrackets : List (Shape × Nat)) (offset : Nat) (text : List Char) :
    (pairsFrom openBrackets offset text).Pairwise fun first second =>
      first.closing < second.closing := by
  induction text generalizing openBrackets offset with
  | nil => exact .nil
  | cons c rest inductionHypothesis =>
      rcases pairsFrom_cons openBrackets offset c rest with ⟨pair, closes, equation⟩ | ⟨_, equation⟩
      · rw [equation]
        refine .cons (fun later member => ?_) (inductionHypothesis _ _)
        obtain ⟨_, _, _, _, _, rfl⟩ := closes
        obtain ⟨before, _, _, _, _, _, _, _, _, rfl⟩ := mem_pairsFrom.1 member
        have positive := c.utf8Size_pos
        show offset < offset + c.utf8Size + Text.byteLength before
        omega
      · rw [equation]
        exact inductionHypothesis _ _

/-! ## Open brackets and matched pairs -/

/-- Each of the open brackets of a text is followed by a level text up to the next one. -/
inductive Leaves : List Char → List (Shape × Nat) → Prop
  | nothing (text : List Char) : Leaves text []
  | more {front inner : List Char} {opening : Char} {shape : Shape} {others : List (Shape × Nat)}
      (leavesOthers : Leaves front others) (opens : opened? opening = some shape)
      (isInner : Level inner) :
      Leaves (front ++ opening :: inner) ((shape, Text.byteLength front) :: others)

theorem Leaves.append_level {text behind : List Char} {openBrackets : List (Shape × Nat)}
    (leaves : Leaves text openBrackets) (isLevel : Level behind) :
    Leaves (text ++ behind) openBrackets := by
  cases leaves with
  | nothing => exact .nothing _
  | more leavesOthers opens isInner =>
      rw [List.append_assoc]
      exact .more leavesOthers opens (isInner.append isLevel)

/-- One more character. -/
theorem Leaves.behind {text : List Char} {openBrackets : List (Shape × Nat)}
    (leaves : Leaves text openBrackets) (c : Char) :
    Leaves (text ++ [c]) (openBehind openBrackets (Text.byteLength text) c) := by
  cases opens : opened? c with
  | some shape =>
      rw [openBehind_of_opened opens]
      exact .more leaves opens .nil
  | none =>
      cases closes : closed? c with
      | none =>
          have noBracket := edge?_of_neither opens closes
          rw [openBehind_of_plain noBracket]
          exact leaves.append_level (.plain noBracket .nil)
      | some shape =>
          rw [openBehind_of_closed closes]
          cases leaves with
          | nothing => exact .nothing _
          | @more front inner opening _ _ leavesOthers opens isInner =>
              -- The bracket that is used up and the character that uses it enclose a level text.
              have enclosed : Level (opening :: (inner ++ [c])) :=
                .enclosed opens closes isInner .nil
              rw [List.append_assoc, List.cons_append]
              exact leavesOthers.append_level enclosed

theorem leaves_openAfter (text : List Char) : Leaves text (openAfter [] 0 text) := by
  induction text using List.reverseRecOn with
  | nil => exact .nothing []
  | append_singleton front c inductionHypothesis =>
      rw [openAfter_append, Nat.zero_add]
      exact inductionHypothesis.behind c

/-- The pairs of a text are its matched pairs. -/
theorem mem_pairs (text : String) (pair : Pair) :
    pair ∈ pairs text ↔ pair.MatchedIn text.toList := by
  rw [pairs, mem_pairsFrom]
  constructor
  · rintro ⟨before, closing, after, split, shape, place, others, closes, isOpen, rfl⟩
    have leaves := leaves_openAfter before
    rw [isOpen] at leaves
    cases leaves with
    | @more front inner opening _ _ _ opens isInner =>
        refine ⟨front, inner, after, opening, closing, shape, ?_, opens, closes, isInner, rfl,
          Nat.zero_add _⟩
        rw [split, List.append_assoc, List.cons_append]
  · obtain ⟨place, closingPlace⟩ := pair
    rintro ⟨before, inner, after, opening, closing, shape, split, opens, closes, isLevel, rfl, rfl⟩
    refine ⟨before ++ opening :: inner, closing, after, ?_, shape, Text.byteLength before,
      openAfter [] 0 before, closes, ?_, ?_⟩
    · rw [split, List.append_assoc, List.cons_append]
    · rw [openAfter_append, openAfter, openBehind_of_opened opens, isLevel.openAfter_eq,
        Nat.zero_add]
    · rw [Nat.zero_add]

-- A bracket of another shape uses up the one that it stands against.
example : pairs "(])" = [] := by
  decide

/-! ## The pair at a cursor -/

/-- A cursor stands on a bracket of a pair or right behind one. -/
def Pair.TouchedAt (pair : Pair) (cursor : Nat) : Prop :=
  pair.StandsAt cursor ∨ 0 < cursor ∧ pair.StandsAt (cursor - 1)

theorem touches_iff (pair : Pair) (cursor : Nat) :
    (touches cursor pair.opening || touches cursor pair.closing) = true ↔
      pair.TouchedAt cursor := by
  simp only [touches, Bool.or_eq_true, decide_eq_true_eq, Pair.TouchedAt, Pair.StandsAt]
  omega

/-- Of the matched pairs that a cursor touches the one that is closed first is found. -/
theorem pairAt?_eq_some_iff (text : String) (cursor : Nat) (pair : Pair) :
    pairAt? text cursor = some pair ↔
      pair.MatchedIn text.toList ∧ pair.TouchedAt cursor ∧
        ∀ other : Pair, other.MatchedIn text.toList → other.TouchedAt cursor →
          pair.closing ≤ other.closing := by
  have ascending := pairsFrom_ascending [] 0 text.toList
  simp only [← mem_pairs, ← touches_iff]
  constructor
  · intro found
    obtain ⟨touched, earlier, later, split, untouched⟩ := List.find?_eq_some_iff_append.1 found
    refine ⟨List.mem_of_find?_eq_some found, touched, fun other member otherTouched => ?_⟩
    rw [pairs] at split
    rw [split, List.pairwise_append, List.pairwise_cons] at ascending
    rw [pairs, split, List.mem_append, List.mem_cons] at member
    rcases member with isEarlier | rfl | isLater
    · have isUntouched := untouched other isEarlier
      rw [otherTouched] at isUntouched
      cases isUntouched
    · exact Nat.le_refl _
    · exact Nat.le_of_lt (ascending.2.1.1 other isLater)
  · rintro ⟨member, touched, first⟩
    obtain ⟨earlier, later, split⟩ := List.append_of_mem member
    refine List.find?_eq_some_iff_append.2 ⟨touched, earlier, later, split, ?_⟩
    intro other isEarlier
    rw [pairs] at split
    rw [split, List.pairwise_append] at ascending
    have before := ascending.2.2 other isEarlier pair List.mem_cons_self
    have isMember : other ∈ pairs text := by
      rw [pairs, split]
      exact List.mem_append_left _ isEarlier
    by_contra isTouched
    rw [Bool.not_eq_true', Bool.not_eq_false] at isTouched
    have behind := first other isMember isTouched
    omega

theorem pairAt?_eq_none_iff (text : String) (cursor : Nat) :
    pairAt? text cursor = none ↔
      ∀ pair : Pair, pair.MatchedIn text.toList → ¬ pair.TouchedAt cursor := by
  simp only [pairAt?, List.find?_eq_none, mem_pairs, touches_iff]

/-- Right behind its closing bracket a matched pair is found. -/
theorem pairAt?_behind_closing {text : String} {pair : Pair}
    (matched : pair.MatchedIn text.toList) : pairAt? text (pair.closing + 1) = some pair := by
  refine (pairAt?_eq_some_iff text _ pair).2 ⟨matched, ?_, fun other otherMatched touched => ?_⟩
  · exact .inr ⟨Nat.succ_pos _, .inr rfl⟩
  · have order := otherMatched.opening_lt_closing
    simp only [Pair.TouchedAt, Pair.StandsAt] at touched
    omega

/-! ## Preference -/

/-- Among the pairs that a cursor touches, the one that closes right before it is found; or else the
one that it stands on; or else the one that it stands right behind. -/
theorem pairAt?_preference (text : String) (cursor : Nat) :
    (∀ pair : Pair, pair.MatchedIn text.toList → cursor = pair.closing + 1 →
      pairAt? text cursor = some pair) ∧
    ((∀ other : Pair, other.MatchedIn text.toList → cursor ≠ other.closing + 1) →
      ∀ pair : Pair, pair.MatchedIn text.toList → pair.StandsAt cursor →
        pairAt? text cursor = some pair) ∧
    ((∀ other : Pair, other.MatchedIn text.toList → ¬ other.StandsAt cursor) →
      ∀ pair : Pair, pair.MatchedIn text.toList → 0 < cursor → pair.StandsAt (cursor - 1) →
        pairAt? text cursor = some pair) ∧
    ((∀ other : Pair, other.MatchedIn text.toList →
        ¬ other.StandsAt cursor ∧ ¬ (0 < cursor ∧ other.StandsAt (cursor - 1))) →
      pairAt? text cursor = none) := by
  refine ⟨?rightBehind, ?on, ?behind, ?nowhere⟩
  case rightBehind =>
    rintro pair matched rfl
    exact pairAt?_behind_closing matched
  case on =>
    intro noneCloses pair matched stands
    refine (pairAt?_eq_some_iff text cursor pair).2
      ⟨matched, .inl stands, fun other otherMatched touched => ?_⟩
    have notBehind := noneCloses other otherMatched
    have order := otherMatched.opening_lt_closing
    rcases matched.eq_or_apart otherMatched with rfl | apart
    · exact Nat.le_refl _
    · simp only [Pair.TouchedAt, Pair.StandsAt, Pair.Apart, Pair.Precedes, Pair.Encloses]
        at touched stands apart
      omega
  case behind =>
    intro noneStands pair matched positive stands
    refine (pairAt?_eq_some_iff text cursor pair).2
      ⟨matched, .inr ⟨positive, stands⟩, fun other otherMatched touched => ?_⟩
    rcases touched with otherStands | ⟨_, otherStands⟩
    · exact absurd otherStands (noneStands other otherMatched)
    · rcases matched.eq_or_apart otherMatched with rfl | apart
      · exact Nat.le_refl _
      · exact absurd ⟨stands, otherStands⟩ (apart.not_both_standAt matched otherMatched)
  case nowhere =>
    intro nowhere
    refine (pairAt?_eq_none_iff text cursor).2 fun pair matched touched => ?_
    obtain ⟨notOn, notBehind⟩ := nowhere pair matched
    exact touched.elim notOn notBehind

/-- Between two pairs that stand next to each other, the cursor stands on the second one, and the
first one is found. -/
theorem pairAt?_not_under_cursor :
    ¬ ∀ (text : String) (cursor : Nat),
      (∀ pair : Pair, pair.MatchedIn text.toList → pair.StandsAt cursor →
        pairAt? text cursor = some pair) ∧
      ((∀ other : Pair, other.MatchedIn text.toList → ¬ other.StandsAt cursor) →
        ∀ pair : Pair, pair.MatchedIn text.toList → 0 < cursor → pair.StandsAt (cursor - 1) →
          pairAt? text cursor = some pair) ∧
      ((∀ other : Pair, other.MatchedIn text.toList →
          ¬ other.StandsAt cursor ∧ ¬ (0 < cursor ∧ other.StandsAt (cursor - 1))) →
        pairAt? text cursor = none) := by
  intro always
  have matched : Pair.MatchedIn "()()".toList ⟨2, 3⟩ := (mem_pairs "()()" ⟨2, 3⟩).1 (by decide)
  have underCursor := (always "()()" 2).1 ⟨2, 3⟩ matched (by decide)
  have found : pairAt? "()()" 2 = some ⟨0, 1⟩ := by decide
  exact absurd (found.symm.trans underCursor) (by decide)

end NanoScript.Bracket
