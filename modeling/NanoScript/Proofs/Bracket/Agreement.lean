import NanoScript.Proofs.Bracket.Pairing
import NanoScript.Proofs.Bracket.Verdict

/-!
Contract: the pairs that are found at the cursors of a text, and the verdict on the text.

Owns:
- the brackets that stand at byte offsets of a text, and the pairs that some cursor finds;
- the theorem that these pairs nest, and that they leave no bracket out just if the text balances.

The two scans part at the first bracket of a wrong shape: the verdict is out, while the search for
pairs drops the bracket that stood open and goes on.  Up to that place both keep the same shapes
open, and that is all that their agreement needs.
-/

namespace NanoScript.Bracket

/-! ## Brackets at offsets -/

/-- A bracket stands at a byte offset of a text. -/
def HasEdge (text : List Char) (offset : Nat) (edge : Edge) : Prop :=
  ∃ before c after, text = before ++ c :: after ∧ Text.byteLength before = offset ∧
    edge? c = some edge

theorem HasEdge.unique {text : List Char} {offset : Nat} {edge other : Edge}
    (isEdge : HasEdge text offset edge) (isOther : HasEdge text offset other) : edge = other := by
  obtain ⟨before, c, after, rfl, rfl, here⟩ := isEdge
  obtain ⟨otherBefore, otherC, otherAfter, same, offsets, there⟩ := isOther
  obtain ⟨_, rfl, _⟩ := Text.place_unique same offsets.symm
  exact Option.some.inj (here.symm.trans there)

/-- The two brackets of a matched pair have one shape. -/
theorem Pair.MatchedIn.hasEdges {text : List Char} {pair : Pair} (matched : pair.MatchedIn text) :
    ∃ shape, HasEdge text pair.opening (.opening shape) ∧
      HasEdge text pair.closing (.closing shape) := by
  obtain ⟨before, inner, after, opening, closing, shape, rfl, opens, closes, _, place,
    closingPlace⟩ := matched
  refine ⟨shape, ⟨before, opening, _, rfl, place.symm, edge?_of_opened opens⟩,
    before ++ opening :: inner, closing, after, ?_, closingPlace.symm, edge?_of_closed closes⟩
  rw [List.append_assoc, List.cons_append]

/-- An opening bracket that stands in a matched pair opens it. -/
theorem Pair.MatchedIn.opening_of_standsAt {text : List Char} {pair : Pair} {offset : Nat}
    {shape : Shape} (matched : pair.MatchedIn text) (stands : pair.StandsAt offset)
    (isEdge : HasEdge text offset (.opening shape)) : offset = pair.opening := by
  obtain ⟨_, _, closes⟩ := matched.hasEdges
  rcases stands with rfl | rfl
  · rfl
  · cases isEdge.unique closes

/-- A closing bracket that stands in a matched pair closes it. -/
theorem Pair.MatchedIn.closing_of_standsAt {text : List Char} {pair : Pair} {offset : Nat}
    {shape : Shape} (matched : pair.MatchedIn text) (stands : pair.StandsAt offset)
    (isEdge : HasEdge text offset (.closing shape)) : offset = pair.closing := by
  obtain ⟨_, opens, _⟩ := matched.hasEdges
  rcases stands with rfl | rfl
  · cases isEdge.unique opens
  · rfl

/-! ## The two scans -/

/-- As long as the verdict is not out, both scans keep the same shapes open. -/
theorem map_openAfter (openBrackets : List (Shape × Nat)) (offset : Nat) {text : List Char}
    {behind : List Shape}
    (isOpen : leftOpen (openBrackets.map Prod.fst) (edges text) = some behind) :
    (openAfter openBrackets offset text).map Prod.fst = behind := by
  induction text generalizing openBrackets offset with
  | nil => exact Option.some.inj isOpen
  | cons c rest inductionHypothesis =>
      rw [edges_cons] at isOpen
      rw [openAfter, openBehind]
      cases isEdge : edge? c with
      | none =>
          rw [isEdge] at isOpen
          exact inductionHypothesis _ _ isOpen
      | some edge =>
          rw [isEdge] at isOpen
          cases edge with
          | opening shape => exact inductionHypothesis _ _ isOpen
          | closing shape =>
              cases openBrackets with
              | nil => cases isOpen
              | cons top others =>
                  simp only [Option.toList_some, List.singleton_append, List.map_cons,
                    leftOpen] at isOpen
                  split at isOpen
                  · exact inductionHypothesis _ _ isOpen
                  · cases isOpen

/-- A text whose edges balance is level. -/
theorem level_of_balanced {text : List Char} (balanced : Balanced (edges text)) : Level text := by
  have plainLevel : ∀ plain : List Char, edges plain = [] → Level plain := by
    intro plain
    induction plain with
    | nil => exact fun _ => .nil
    | cons c rest inductionHypothesis =>
        intro noEdges
        rw [edges_cons, List.append_eq_nil_iff, Option.toList_eq_nil_iff] at noEdges
        exact .plain noEdges.1 (inductionHypothesis noEdges.2)
  generalize isWord : edges text = word at balanced
  induction balanced generalizing text with
  | nil => exact plainLevel text isWord
  | @enclosed shape inner rest _ _ innerHypothesis restHypothesis =>
      obtain ⟨plain, opening, behind, rfl, noEdges, opens, isBehind⟩ :=
        exists_split_of_edges (isWord.trans (List.nil_append _).symm)
      obtain ⟨innerText, closing, restText, rfl, isInner, closes, isRest⟩ :=
        exists_split_of_edges isBehind
      have enclosed : Level (opening :: (innerText ++ closing :: restText)) :=
        .enclosed (opened?_of_edge? opens) (closed?_of_edge? closes) (innerHypothesis isInner)
          (restHypothesis isRest)
      exact (plainLevel plain noEdges).append enclosed

/-- Every bracket of a text that balances stands in a matched pair. -/
theorem exists_pair_of_balanced {text : String} (balanced : Balanced (edges text.toList))
    {offset : Nat} {edge : Edge} (isEdge : HasEdge text.toList offset edge) :
    ∃ pair : Pair, pair.MatchedIn text.toList ∧ pair.StandsAt offset := by
  obtain ⟨before, c, after, split, rfl, here⟩ := isEdge
  -- Some shapes are open before the bracket, and with it the rest of the text closes them all.
  have closed : leftOpen [] (edges before ++ edge :: edges after) = some [] := by
    have whole := balanced.leftOpen_eq []
    rw [split, edges_append, edges_cons, here] at whole
    exact whole
  rw [leftOpen_append] at closed
  obtain ⟨behind, isOpen, closed⟩ := Option.bind_eq_some_iff.1 closed
  cases edge with
  | opening shape =>
      have closes : Closes (shape :: behind) (edges after) := closes_of_leftOpen closed
      generalize isWord : edges after = word at closes
      cases closes with
      | @next _ _ inner rest isInner _ =>
          obtain ⟨innerText, closing, later, rfl, rfl, closes, _⟩ := exists_split_of_edges isWord
          refine ⟨⟨Text.byteLength before, Text.byteLength (before ++ c :: innerText)⟩, ?_,
            .inl rfl⟩
          exact ⟨before, innerText, later, c, closing, shape, split, opened?_of_edge? here,
            closed?_of_edge? closes, level_of_balanced isInner, rfl, rfl⟩
  | closing shape =>
      cases behind with
      | nil => cases closed
      | cons innermost others =>
          have same : innermost = shape := by
            by_contra differs
            simp only [leftOpen, if_neg differs] at closed
            cases closed
          subst same
          have shapes := map_openAfter [] 0 isOpen
          obtain ⟨⟨shape, place⟩, later, isTop, rfl, _⟩ := List.map_eq_cons_iff.1 shapes
          refine ⟨⟨place, 0 + Text.byteLength before⟩, ?_, .inr (Nat.zero_add _).symm⟩
          refine (mem_pairs text _).1 (mem_pairsFrom.2 ⟨before, c, after, split, ?_⟩)
          exact ⟨shape, place, later, closed?_of_edge? here, isTop, rfl⟩

/-- A bracket that is open at the end of a text stands in no matched pair. -/
theorem unpaired_of_open {text : List Char} {shape : Shape} {place : Nat}
    {others : List (Shape × Nat)} (isOpen : openAfter [] 0 text = (shape, place) :: others) :
    HasEdge text place (.opening shape) ∧
      ∀ pair : Pair, pair.MatchedIn text → ¬ pair.StandsAt place := by
  have leaves := leaves_openAfter text
  rw [isOpen] at leaves
  cases leaves with
  | @more front inner opening _ _ _ opens isInner =>
      have isEdge : HasEdge (front ++ opening :: inner) (Text.byteLength front) (.opening shape) :=
        ⟨front, opening, inner, rfl, rfl, edge?_of_opened opens⟩
      refine ⟨isEdge, fun pair matched stands => ?_⟩
      have place := matched.opening_of_standsAt stands isEdge
      obtain ⟨before, within, after, _, closing, _, same, _, closes, isWithin, opensAt, _⟩ := matched
      obtain ⟨_, _, rfl⟩ := Text.place_unique same (place.trans opensAt)
      exact isInner.not_closed_behind closes isWithin

/-- A bracket that closes none of the open shapes stands in no matched pair. -/
theorem unpaired_of_mismatch {text : String} {closing : Char} {place : Nat}
    (mismatches : Mismatches [] 0 text.toList closing place) :
    ∃ shape, HasEdge text.toList place (.closing shape) ∧
      ∀ pair : Pair, pair.MatchedIn text.toList → ¬ pair.StandsAt place := by
  obtain ⟨before, after, behind, split, rfl, closes, isOpen, unmatched⟩ := mismatches
  obtain ⟨shape, closes⟩ := Option.isSome_iff_exists.1 closes
  have isEdge : HasEdge text.toList (0 + Text.byteLength before) (.closing shape) :=
    ⟨before, closing, after, split, (Nat.zero_add _).symm, edge?_of_closed closes⟩
  refine ⟨shape, isEdge, fun pair matched stands => ?_⟩
  have place := matched.closing_of_standsAt stands isEdge
  -- The scan for pairs would find the bracket to close the innermost open one, and the verdict
  -- keeps the same shapes open.
  obtain ⟨otherBefore, c, otherAfter, otherSplit, shape', opening, others, closes', isTop, rfl⟩ :=
    mem_pairsFrom.1 ((mem_pairs text pair).2 matched)
  obtain ⟨rfl, rfl, _⟩ :=
    Text.place_unique (split.symm.trans otherSplit) (Nat.add_left_cancel place)
  have shapes := map_openAfter [] 0 isOpen
  rw [isTop] at shapes
  rw [← shapes, edges_cons, edge?_of_closed closes'] at unmatched
  simp [leftOpen, edges] at unmatched

/-- A text every bracket of which stands in a matched pair is found balanced. -/
theorem judge_eq_balanced_of_pairs {text : String}
    (paired : ∀ offset edge, HasEdge text.toList offset edge →
      ∃ pair : Pair, pair.MatchedIn text.toList ∧ pair.StandsAt offset) :
    judge text = .balanced := by
  cases verdict : judge text with
  | balanced => rfl
  | unfinished =>
      have tells := judge_tells text
      rw [verdict] at tells
      obtain ⟨innermost, others, isOpen⟩ := tells
      obtain ⟨⟨shape, place⟩, later, isTop, _⟩ :=
        List.map_eq_cons_iff.1 (map_openAfter [] 0 isOpen)
      obtain ⟨isEdge, unpaired⟩ := unpaired_of_open isTop
      obtain ⟨pair, matched, stands⟩ := paired _ _ isEdge
      exact absurd stands (unpaired pair matched)
  | unmatched closing offset =>
      obtain ⟨shape, isEdge, unpaired⟩ :=
        unpaired_of_mismatch (mismatches_of_judgeFrom verdict)
      obtain ⟨pair, matched, stands⟩ := paired _ _ isEdge
      exact absurd stands (unpaired pair matched)

/-! ## Found pairs -/

/-- A pair is found at some cursor of a text. -/
def Found (text : String) (pair : Pair) : Prop :=
  ∃ cursor, pairAt? text cursor = some pair

/-- The pairs that are found are the matched pairs. -/
theorem found_iff (text : String) (pair : Pair) :
    Found text pair ↔ pair.MatchedIn text.toList := by
  constructor
  · rintro ⟨cursor, found⟩
    exact ((pairAt?_eq_some_iff text cursor pair).1 found).1
  · exact fun matched => ⟨pair.closing + 1, pairAt?_behind_closing matched⟩

/-- The pairs that the cursors of a text find are made of two brackets of one shape, each of them is
found right behind its closing bracket, and two of them have no bracket in common and do not cross.
The text is found balanced just if they leave no bracket of it out. -/
theorem found_pairs_nest (text : String) :
    (∀ pair, Found text pair →
      pair.opening < pair.closing ∧
      (∃ shape, HasEdge text.toList pair.opening (.opening shape) ∧
        HasEdge text.toList pair.closing (.closing shape)) ∧
      pairAt? text (pair.closing + 1) = some pair) ∧
    (∀ first second, Found text first → Found text second → first ≠ second →
      (∀ offset, ¬ (first.StandsAt offset ∧ second.StandsAt offset)) ∧ first.Apart second) ∧
    (judge text = .balanced ↔
      ∀ offset edge, HasEdge text.toList offset edge →
        ∃ pair, Found text pair ∧ pair.StandsAt offset) := by
  simp only [found_iff]
  refine ⟨fun pair matched => ?_, fun first second isFirst isSecond differ => ?_, ?_⟩
  · exact ⟨matched.opening_lt_closing, matched.hasEdges, pairAt?_behind_closing matched⟩
  · have apart := (isFirst.eq_or_apart isSecond).resolve_left differ
    exact ⟨fun offset => apart.not_both_standAt isFirst isSecond, apart⟩
  · constructor
    · intro verdict offset edge isEdge
      have balanced := (balanced_iff _).2 ((judge_eq_balanced_iff text).1 verdict)
      exact exists_pair_of_balanced balanced isEdge
    · exact judge_eq_balanced_of_pairs

end NanoScript.Bracket
